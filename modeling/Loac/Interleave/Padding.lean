import Mathlib.Data.List.Basic

/-!
# Queues with elements that nobody misses

Two queues hold the same elements of interest in the same order.  Which elements
are of interest changes: one that is not any more never is again.  A consumer of
the first queue and one of the second one take what is of interest at the same
time, where each skips some of the rest before.
-/

namespace Interleave

variable {κ : Type} {live live' : κ -> Bool} {trailing : Prop}
  {l l' before after more : List κ} {key : κ}

/-- The first queue begins with an element that its consumer skips. -/
def Skipped (rel : (κ -> Bool) -> List κ -> List κ -> Prop)
    (live : κ -> Bool) (l l' : List κ) : Prop :=
  exists key rest, l = key :: rest ∧ live key = false ∧ rel live rest l'

/-- Both consumers take the same element next, or find nothing. -/
inductive Fronted (rel : (κ -> Bool) -> List κ -> List κ -> Prop)
    (live : κ -> Bool) : List κ -> List κ -> Prop where
  | none : Fronted rel live [] []
  | some {key : κ} {rest rest' : List κ} :
      rel live rest rest' -> Fronted rel live (key :: rest) (key :: rest')

/-- The second consumer gets ready for what the first one takes next. -/
def Commits (rel : (κ -> Bool) -> List κ -> List κ -> Prop)
    (live : κ -> Bool) (l l' : List κ) : Prop :=
  exists before after, l' = before ++ after ∧
    (forall key, key ∈ before -> live key = false) ∧ Fronted rel live l after

theorem Fronted.commits {rel : (κ -> Bool) -> List κ -> List κ -> Prop}
    (h : Fronted rel live l l') : Commits rel live l l' := by
  refine ⟨[], l', rfl, ?_, h⟩
  intro key hmem
  cases hmem

/--
How two queues are related while both grow by the same elements and their
consumers make progress.  Where `trailing` does not hold, one of them is empty
only when the other one is.
-/
structure Pairing (κ : Type) where
  trailing : Prop
  rel : (κ -> Bool) -> List κ -> List κ -> Prop
  nil : forall live, rel live [] []
  fewer : forall {live live' : κ -> Bool} {l l' : List κ},
    (forall key, live' key = true -> live key = true) ->
    rel live l l' -> rel live' l l'
  append : forall {live : κ -> Bool} {l l' : List κ} (more : List κ),
    rel live l l' -> rel live (l ++ more) (l' ++ more)
  commits : forall {live : κ -> Bool} {l l' : List κ}, rel live l l' ->
    Skipped rel live l l' ∨ Commits rel live l l'
  finishes : forall {live : κ -> Bool} {l l' : List κ}, rel live l l' ->
    trailing ∨ l.isEmpty = l'.isEmpty

namespace Pairing

variable {P : Pairing κ}

theorem skipped_append (more : List κ) (h : Skipped P.rel live l l') :
    Skipped P.rel live (l ++ more) (l' ++ more) := by
  rcases h with ⟨key, rest, hl, hgone, hrel⟩
  subst hl
  exact ⟨key, rest ++ more, rfl, hgone, P.append more hrel⟩

theorem fronted_append (more : List κ) (h : Fronted P.rel live l l') :
    Fronted P.rel live (l ++ more) (l' ++ more) := by
  cases h with
  | some hrel => exact .some (P.append more hrel)
  | none =>
      cases more with
      | nil => exact .none
      | cons key rest => exact .some (P.append rest (P.nil live))

end Pairing

/-!
## Additional elements
-/

/--
The second queue has additional elements, and none of them is of interest.  They
can stand behind everything else only where `trailing` holds.
-/
inductive Padded (live : κ -> Bool) (trailing : Prop) :
    List κ -> List κ -> Prop where
  | nil : Padded live trailing [] []
  | same {key : κ} {l l' : List κ} :
      Padded live trailing l l' ->
      Padded live trailing (key :: l) (key :: l')
  | extra {key : κ} {l l' : List κ} :
      live key = false -> (l = [] -> trailing) ->
      Padded live trailing l l' -> Padded live trailing l (key :: l')

namespace Padded

theorem refl (l : List κ) : Padded live trailing l l := by
  induction l with
  | nil => exact .nil
  | cons key rest ih => exact .same ih

theorem fewer (hfewer : forall key, live' key = true -> live key = true)
    (h : Padded live trailing l l') : Padded live' trailing l l' := by
  induction h with
  | nil => exact .nil
  | same _ ih => exact .same ih
  | @extra key _ _ hgone htrailing _ ih =>
      refine .extra ?_ htrailing ih
      cases hlive : live' key with
      | false => rfl
      | true =>
          rw [hfewer key hlive] at hgone
          cases hgone

theorem append (more : List κ) (h : Padded live trailing l l') :
    Padded live trailing (l ++ more) (l' ++ more) := by
  induction h with
  | nil => exact refl more
  | same _ ih => exact .same ih
  | extra hgone htrailing _ ih =>
      refine .extra hgone ?_ ih
      intro hnil
      exact htrailing (List.append_eq_nil_iff.mp hnil).left

theorem commits (h : Padded live trailing l l') :
    Commits (fun live => Padded live trailing) live l l' := by
  induction h with
  | nil => exact Fronted.none.commits
  | same h _ => exact (Fronted.some h).commits
  | @extra key _ _ hgone _ _ ih =>
      rcases ih with ⟨before, after, hl', hbefore, hfronted⟩
      subst hl'
      refine ⟨key :: before, after, rfl, ?_, hfronted⟩
      intro other hmem
      rcases List.mem_cons.mp hmem with heq | hmem'
      · rw [heq]
        exact hgone
      · exact hbefore other hmem'

theorem finishes (h : Padded live trailing l l') :
    trailing ∨ l.isEmpty = l'.isEmpty := by
  cases h with
  | nil => exact Or.inr rfl
  | same _ => exact Or.inr rfl
  | extra _ htrailing _ =>
      cases l with
      | nil => exact Or.inl (htrailing rfl)
      | cons _ _ => exact Or.inr rfl

/-- Additional elements stand behind everything else. -/
theorem behind (l : List κ) (hgone : forall key, key ∈ more -> live key = false)
    (htrailing : trailing) : Padded live trailing l (l ++ more) := by
  induction l with
  | cons key rest ih => exact .same ih
  | nil =>
      induction more with
      | nil => exact .nil
      | cons key rest ih =>
          exact .extra (hgone key List.mem_cons_self) (fun _ => htrailing)
            (ih fun other hmem => hgone other (List.mem_cons_of_mem key hmem))

end Padded

/-- The consumer of the shorter queue goes first. -/
def padding (κ : Type) (trailing : Prop) : Pairing κ where
  trailing := trailing
  rel := fun live l l' => Padded live trailing l l'
  nil := fun _ => .nil
  fewer := Padded.fewer
  append := Padded.append
  commits := fun h => Or.inr h.commits
  finishes := Padded.finishes

/-- The consumer of the longer queue goes first. -/
def unpadding (κ : Type) (trailing : Prop) : Pairing κ where
  trailing := trailing
  rel := fun live l l' => Padded live trailing l' l
  nil := fun _ => .nil
  fewer := Padded.fewer
  append := Padded.append
  commits := by
    intro live l l' h
    cases h with
    | nil => exact Or.inr Fronted.none.commits
    | same h => exact Or.inr (Fronted.some h).commits
    | @extra key _ rest hgone _ h => exact Or.inl ⟨key, rest, rfl, hgone, h⟩
  finishes := fun h => h.finishes.imp id Eq.symm

end Interleave

import Loac.Hierarchy

/-!
# A root and its child

The smallest tree in which somebody is registered.  A script says which of the
two moves, and the root observes whatever its child shows of a step.
-/

namespace Loac

open Interleave

variable {V : Type} {F : Family}

def Child.act (key : Key) (before after : Child) : Option EnvAct :=
  if before = after then
    none
  else if before.mode = after.mode then
    some (.childPublish key)
  else
    match after.mode with
    | .exited status => some (.child key (.finish status))
    | .aborting => some (.child key .beginAbort)
    | .failing => some (.child key .beginFailure)
    | .killing => some (.child key (.request .kill))
    | .draining => some (.child key (.request .drain))
    | _ => some (.child key (.request .stop))

/-- A root and its first child, where nobody else is registered. -/
structure Couple (V : Type) where
  root : ActorState V
  child : ActorState V

namespace Couple

variable {couple couple' : Couple V}

def single (V : Type) (F : Family) : Couple V where
  root := initial V (F.config [])
  child := initial V (F.config [0])

def tree (F : Family) (couple : Couple V) : Tree V
  | [] => couple.root
  | [0] => couple.child
  | place => initial V (F.config place)

/-- The child is registered, and the root knows its mode and its exit. -/
def Known (couple : Couple V) : Prop :=
  couple.root.state.kin.next = 1 ∧ couple.child.state.kin.next = 0 ∧
    couple.root.state.kin.children 0 = ActorState.child couple.child

instance (couple : Couple V) : Decidable couple.Known :=
  inferInstanceAs (Decidable (_ ∧ _ ∧ _))

def Fits (F : Family) (couple : Couple V) : Prop :=
  couple.root.state.kin.next = 0 ∧
    couple.child = initial V (F.config [0]) ∨ couple.Known

theorem single_tree (V : Type) (F : Family) :
    (single V F).tree F = seed V F := by
  funext place
  unfold tree
  split <;> rfl

theorem Fits.coherent (h : couple.Fits F) : Coherent F (couple.tree F) where
  registered := by
    intro place key hlt
    unfold tree at hlt
    split at hlt
    · cases h with
      | inl hnobody =>
          rw [hnobody.left] at hlt
          cases hlt
      | inr hknown =>
          rw [hknown.left, Nat.lt_one_iff] at hlt
          subst hlt
          exact hknown.right.right
    · cases h with
      | inl hnobody =>
          rw [hnobody.right] at hlt
          cases hlt
      | inr hknown =>
          rw [hknown.right.left] at hlt
          cases hlt
    · cases hlt
  unregistered := by
    intro place key hle
    cases place with
    | cons other place => cases key <;> rfl
    | nil =>
        cases key with
        | succ key => rfl
        | zero =>
            cases h with
            | inl hnobody => exact hnobody.right
            | inr hknown =>
                change couple.root.state.kin.next <= 0 at hle
                rw [hknown.left] at hle
                cases hle

/-!
## Moves
-/

inductive Mover where
  | root
  | child
deriving DecidableEq

def moveRoot (F : Family) (couple : Couple V)
    (event : Event (Input V) EnvAct) : Option (Couple V) :=
  ((machine V (F.config [])).step couple.root event).bind fun c =>
    if c.state.kin.next = 0 ∧ couple.root.state.kin.next = 0 ∨
        Known { couple with root := c } then
      some { couple with root := c }
    else
      none

def observe (F : Family) (couple : Couple V) (c : ActorState V) :
    Option (ActorState V) :=
  match Child.act 0 couple.child.child c.child with
  | none => some couple.root
  | some e => (machine V (F.config [])).step couple.root (.env e)

def moveChild (F : Family) (couple : Couple V)
    (event : Event (Input V) EnvAct) : Option (Couple V) :=
  ((machine V (F.config [0])).step couple.child event).bind fun c =>
    (couple.observe F c).bind fun root =>
      if Known { root, child := c } then
        some { root, child := c }
      else
        none

def step (F : Family) (couple : Couple V) (event : Event (Input V) EnvAct) :
    Mover -> Option (Couple V)
  | .root => couple.moveRoot F event
  | .child => couple.moveChild F event

theorem tree_others (root root' child child' : ActorState V) {place : Place}
    (hroot : place ≠ []) (hchild : place ≠ [0]) :
    tree F { root, child } place =
      tree F { root := root', child := child' } place := by
  unfold tree
  split <;> first | contradiction | rfl

theorem Fits.moveRoot (h : couple.Fits F) {event : Event (Input V) EnvAct}
    (hmove : couple.moveRoot F event = some couple') :
    couple'.Fits F ∧ Grows F (couple.tree F) (couple'.tree F) := by
  rcases Option.bind_eq_some_iff.mp hmove with ⟨c, hstep, hsome⟩
  rcases Option.ite_none_right_eq_some.mp hsome with ⟨hknown, hcouple⟩
  cases hcouple
  have hfits : Fits F { couple with root := c } := by
    cases hknown with
    | inr hknown => exact Or.inr hknown
    | inl hnobody =>
        cases h with
        | inl hbefore => exact Or.inl ⟨hnobody.left, hbefore.right⟩
        | inr hbefore =>
            rw [hbefore.left] at hnobody
            cases hnobody.right
  refine ⟨hfits, .step [] event hstep ?_ hfits.coherent⟩
  intro place hne
  apply Observes.nothing
  by_cases hchild : place = [0]
  · rw [hchild]
    rfl
  · exact tree_others _ _ _ _ hne hchild

theorem Fits.moveChild {event : Event (Input V) EnvAct}
    (hmove : couple.moveChild F event = some couple') :
    couple'.Fits F ∧ Grows F (couple.tree F) (couple'.tree F) := by
  rcases Option.bind_eq_some_iff.mp hmove with ⟨c, hstep, hrest⟩
  rcases Option.bind_eq_some_iff.mp hrest with ⟨root, hroot, hsome⟩
  rcases Option.ite_none_right_eq_some.mp hsome with ⟨hknown, hcouple⟩
  cases hcouple
  have hfits : Fits F { root, child := c } := Or.inr hknown
  refine ⟨hfits, .step [0] event hstep ?_ hfits.coherent⟩
  intro place hne
  by_cases hplace : place = []
  · rw [hplace]
    unfold observe at hroot
    split at hroot
    · cases hroot
      exact .nothing rfl
    · exact .something _ hroot
  · exact .nothing (tree_others _ _ _ _ hplace hne)

theorem Fits.step (h : couple.Fits F) {event : Event (Input V) EnvAct}
    {mover : Mover} (hstep : couple.step F event mover = some couple') :
    couple'.Fits F ∧ Grows F (couple.tree F) (couple'.tree F) := by
  cases mover with
  | root => exact h.moveRoot hstep
  | child => exact moveChild hstep

/-!
## Scripts
-/

/-- One of the two runs while it needs no choice, for at most the given fuel. -/
def settle (F : Family) (mover : Mover) : Nat -> Couple V -> Couple V
  | 0, couple => couple
  | fuel + 1, couple =>
      match couple.step F (.actor .next) mover with
      | none => couple
      | some couple' => settle F mover fuel couple'

/-- Plays a script, and settles both of them before each move. -/
def play (F : Family) (fuel : Nat) :
    List (Mover × Event (Input V) EnvAct) -> Couple V -> Option (Couple V)
  | [], couple => some couple
  | (mover, event) :: rest, couple =>
      (((couple.settle F .child fuel).settle F .root fuel).step F event
        mover).bind (play F fuel rest)

theorem Fits.settle (mover : Mover) (fuel : Nat) {couple : Couple V}
    (h : couple.Fits F) :
    (couple.settle F mover fuel).Fits F ∧
      Growth F (couple.tree F) ((couple.settle F mover fuel).tree F) := by
  induction fuel generalizing couple with
  | zero => exact ⟨h, .refl⟩
  | succ fuel ih =>
      unfold Couple.settle
      cases hstep : couple.step F (.actor .next) mover with
      | none => exact ⟨h, .refl⟩
      | some next =>
          have hnext := h.step hstep
          exact ⟨(ih hnext.left).left, (ih hnext.left).right.head hnext.right⟩

theorem settle_step {mover : Mover} {fuel : Nat} {couple : Couple V}
    (h : ((couple.settle F mover fuel).step F (.actor .next) mover).isSome =
      true) :
    (couple.settle F mover fuel).step F (.actor .next) mover =
      some (couple.settle F mover (fuel + 1)) := by
  induction fuel generalizing couple with
  | zero =>
      rcases Option.isSome_iff_exists.mp h with ⟨next, hstep⟩
      change couple.step F (.actor .next) mover = some next at hstep
      show couple.step F (.actor .next) mover = some (couple.settle F mover 1)
      rw [settle, hstep]
      rfl
  | succ fuel ih =>
      unfold settle at h ⊢
      cases hstep : couple.step F (.actor .next) mover with
      | none =>
          rw [hstep] at h
          simp [hstep] at h
      | some next =>
          rw [hstep] at h
          exact ih h

theorem Fits.play {fuel : Nat} {script : List (Mover × Event (Input V) EnvAct)}
    {couple : Couple V} (h : couple.Fits F)
    (hplay : couple.play F fuel script = some couple') :
    couple'.Fits F ∧ Growth F (couple.tree F) (couple'.tree F) := by
  induction script generalizing couple with
  | nil =>
      cases hplay
      exact ⟨h, .refl⟩
  | cons first rest ih =>
      rcases first with ⟨mover, event⟩
      rcases Option.bind_eq_some_iff.mp hplay with ⟨next, hstep, hrest⟩
      have hchild := h.settle .child fuel
      have hroot := hchild.left.settle .root fuel
      have hnext := hroot.left.step hstep
      rcases ih hnext.left hrest with ⟨hfits, hgrowth⟩
      exact ⟨hfits, ((hchild.right.trans hroot.right).tail hnext.right).trans
        hgrowth⟩

/-- Plays a script from the start, and lets one of the two go on. -/
def stage (F : Family) (fuel : Nat)
    (script : List (Mover × Event (Input V) EnvAct)) (mover : Mover)
    (rest : Nat) : Couple V :=
  settle F mover rest (((single V F).play F fuel script).getD (single V F))

section

variable (F : Family) (fuel : Nat)
  (script : List (Mover × Event (Input V) EnvAct)) (mover : Mover)
  (rest : Nat)

theorem stage_fits :
    (stage F fuel script mover rest).Fits F ∧
      Growth F (seed V F) ((stage F fuel script mover rest).tree F) := by
  have hsingle : (single V F).Fits F := Or.inl ⟨rfl, rfl⟩
  have hplayed : (((single V F).play F fuel script).getD (single V F)).Fits F ∧
      Growth F (seed V F)
        ((((single V F).play F fuel script).getD (single V F)).tree F) := by
    rw [← single_tree]
    cases hplay : (single V F).play F fuel script with
    | none => exact ⟨hsingle, .refl⟩
    | some couple => exact hsingle.play hplay
  have hsettled := hplayed.left.settle mover rest
  exact ⟨hsettled.left, hplayed.right.trans hsettled.right⟩

theorem stage_growth :
    Growth F (seed V F) ((stage F fuel script mover rest).tree F) :=
  (stage_fits F fuel script mover rest).right

theorem stage_grows
    (h : ((stage F fuel script mover rest).step F (.actor .next) mover).isSome =
      true) :
    Grows F ((stage F fuel script mover rest).tree F)
      ((stage F fuel script mover (rest + 1)).tree F) :=
  ((stage_fits F fuel script mover rest).left.step (settle_step h)).right

end

end Couple

end Loac

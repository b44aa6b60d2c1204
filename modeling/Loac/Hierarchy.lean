import Loac.Interleave.Network
import Loac.Runtime.Lifetime

/-!
# Trees of actors

Every actor may have children, which may have children of their own.  What a
parent knows of a child is the mode of the child and the exit that the child
sent, and a child comes into being when its parent registers it.
-/

namespace Loac

open Interleave

/-- The keys on the way to an actor from the root, the last one first. -/
abbrev Place : Type :=
  List Key

structure Family where
  config : Place -> ActorConfig
  root : (config []).parent = false
  child : forall key place, (config (key :: place)).parent = true

abbrev Tree (V : Type) : Type 1 :=
  Place -> ActorState V

variable {V : Type}

def ActorState.child (c : ActorState V) : Child where
  mode := c.state.control.mode
  published := c.state.life.exits

/-- Every parent knows its children, and nobody else has any. -/
structure Coherent (F : Family) (tree : Tree V) : Prop where
  registered : forall place key, key < (tree place).state.kin.next ->
    (tree place).state.kin.children key =
      ActorState.child (tree (key :: place))
  unregistered : forall place key, (tree place).state.kin.next <= key ->
    tree (key :: place) = initial V (F.config (key :: place))

/-- The root whose address was just handed out. -/
def seed (V : Type) (F : Family) : Tree V :=
  fun place => initial V (F.config place)

/-- One actor of the tree moves. -/
abbrev Grows (F : Family) : Tree V -> Tree V -> Prop :=
  Joint (fun place => machine V (F.config place)) (Coherent F)

abbrev Growth (F : Family) : Tree V -> Tree V -> Prop :=
  Runs (fun place => machine V (F.config place)) (Coherent F)

inductive Descends (tree : Tree V) (place : Place) : Place -> Prop where
  | child {key : Key} : key < (tree place).state.kin.next ->
      Descends tree place (key :: place)
  | further {key : Key} {below : Place} : Descends tree place below ->
      key < (tree below).state.kin.next ->
        Descends tree place (key :: below)

theorem seed_coherent (V : Type) (F : Family) : Coherent F (seed V F) where
  registered := by
    intro place key hlt
    cases hlt
  unregistered := fun _ _ _ => rfl

end Loac

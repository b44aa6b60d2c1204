import Loac.Hierarchy.Confirmation

/-!
# Causes

Nothing that user code does, and no shutdown request, loses the confirmation of
a subtree.  An actor publishes an unconfirmed subtree exactly if it was aborted
itself, or somebody who was ever registered below it was.
-/

namespace Loac

open Interleave

variable {V : Type} {F : Family} {tree tree' : Tree V} {place below : Place}
  {status : ExitStatus}

/-- The task of the actor was dropped, or a poll of it unwound. -/
def Aborted (tree : Tree V) (place : Place) : Prop :=
  .aborting ∈ (tree place).state.control.committed

def Broken (tree : Tree V) (place : Place) : Prop :=
  Aborted tree place ∨ exists below, Descends tree place below ∧
    Aborted tree below

/-!
## What a step keeps
-/

theorem next_le_exec {α : Type} {op : Op V α} {input : Input V}
    {w w' : World V} {a : α} (hexec : op.exec A input w = some (w', a)) :
    w.kin.next <= w'.kin.next := by
  cases haccounts : op.accounts with
  | false =>
      cases Op.kin_exec haccounts hexec with
      | inl hfollows => exact Nat.le_of_eq hfollows.next.symm
      | inr hspawn =>
          rw [hspawn.right]
          exact Nat.le_succ _
  | true =>
      cases op with
      | kin op =>
          cases hexec
          show w.kin.next <= (op.exec input.reception w.kin).1.next
          cases op with
          | reap event => grind [KinOp.exec, Kin.reap, Kin.next_note]
          | wait key => grind [KinOp.exec, Kin.wait, Kin.next_note]
          | clear => exact Nat.le_refl _
          | _ => cases haccounts
      | _ => cases haccounts

theorem step_next_le {c c' : ActorState V} {event : Event (Input V) EnvAct}
    (hstep : (machine V A).step c event = some c') :
    c.state.kin.next <= c'.state.kin.next := by
  cases Machine.effect_of_step hstep with
  | nothing hsame => exact Nat.le_of_eq (by rw [hsame])
  | actor op next input b _ hexec => exact next_le_exec hexec
  | env e henv => exact Nat.le_of_eq (EnvAct.kin_exec henv).next.symm

theorem Grows.aborted (hgrows : Grows F tree tree')
    (haborted : Aborted tree place) : Aborted tree' place := by
  unfold Aborted at haborted ⊢
  cases hgrows.at place with
  | inl hsame => rwa [hsame]
  | inr hstep =>
      rcases hstep with ⟨event, hstep⟩
      cases step_moves hstep with
      | stays _ hcommitted => rwa [hcommitted]
      | advances _ hcommitted =>
          rw [hcommitted]
          exact List.mem_cons_of_mem _ haborted

theorem Grows.next_le (hgrows : Grows F tree tree') (place : Place) :
    (tree place).state.kin.next <= (tree' place).state.kin.next := by
  cases hgrows.at place with
  | inl hsame => exact Nat.le_of_eq (by rw [hsame])
  | inr hstep =>
      rcases hstep with ⟨event, hstep⟩
      exact step_next_le hstep

theorem Grows.descends (hgrows : Grows F tree tree')
    (hbelow : Descends tree place below) : Descends tree' place below := by
  induction hbelow with
  | child hkey => exact .child (Nat.lt_of_lt_of_le hkey (hgrows.next_le _))
  | further _ hkey ih =>
      exact .further ih (Nat.lt_of_lt_of_le hkey (hgrows.next_le _))

theorem Grows.broken (hgrows : Grows F tree tree')
    (hbroken : Broken tree place) : Broken tree' place := by
  cases hbroken with
  | inl haborted => exact Or.inl (hgrows.aborted haborted)
  | inr hbelow =>
      rcases hbelow with ⟨below, hdescends, haborted⟩
      exact Or.inr ⟨below, hgrows.descends hdescends, hgrows.aborted haborted⟩

theorem Descends.of_child {key : Key}
    (hkey : key < (tree place).state.kin.next)
    (hbelow : Descends tree (key :: place) below) :
    Descends tree place below := by
  induction hbelow with
  | child hkey' => exact .further (.child hkey) hkey'
  | further _ hkey' ih => exact .further ih hkey'

theorem Broken.of_child {key : Key} (hkey : key < (tree place).state.kin.next)
    (hbroken : Broken tree (key :: place)) : Broken tree place := by
  cases hbroken with
  | inl haborted => exact Or.inr ⟨key :: place, .child hkey, haborted⟩
  | inr hbelow =>
      rcases hbelow with ⟨below, hdescends, haborted⟩
      exact Or.inr ⟨below, .of_child hkey hdescends, haborted⟩

/-!
## Causes
-/

theorem Grown.unconfirmed_of_aborted (h : Grown F tree)
    (hexited : (tree place).state.control.mode = .exited status)
    (haborted : Aborted tree place) : status.subtree = .unconfirmed := by
  have hinv : LifeInv (F.config place) .any (tree place).state :=
    (reachable_safe (h.reachable place)).inv
  apply status.aborted
  rw [(hinv.ended status hexited).reason]
  exact if_pos haborted

theorem Grown.unconfirmed_of_broken (h : Grown F tree)
    (hexited : (tree place).state.control.mode = .exited status)
    (hbroken : Broken tree place) : status.subtree = .unconfirmed := by
  cases hbroken with
  | inl haborted => exact h.unconfirmed_of_aborted hexited haborted
  | inr hbelow =>
      rcases hbelow with ⟨below, hdescends, haborted⟩
      cases hsubtree : status.subtree with
      | unconfirmed => rfl
      | terminated =>
          rcases h.confirms_below ⟨status, hexited, hsubtree⟩ hdescends with
            ⟨status', hexited', hsubtree'⟩
          rw [h.unconfirmed_of_aborted hexited' haborted] at hsubtree'
          cases hsubtree'

theorem Grown.unconfirmed_child (h : Grown F tree)
    (hexited : (tree place).state.control.mode = .exited status)
    (hunconfirmed : status.subtree = .unconfirmed)
    (haborted : ¬ Aborted tree place) :
    exists key status', key < (tree place).state.kin.next ∧
      (tree (key :: place)).state.control.mode = .exited status' ∧
      status'.subtree = .unconfirmed := by
  have hinv : LifeInv (F.config place) .any (tree place).state :=
    (reachable_safe (h.reachable place)).inv
  have hsettled := (hinv.ended status hexited).settled haborted
  rw [hsettled.right] at hunconfirmed
  rcases hinv.kin.cause hunconfirmed with
    ⟨key, status', hkey, hchild, hsubtree⟩
  rw [h.coherent.registered place key hkey] at hchild
  exact ⟨key, status', hkey, hchild, hsubtree⟩

def Traced (tree : Tree V) : Prop :=
  forall place status, (tree place).state.control.mode = .exited status ->
    status.subtree = .unconfirmed -> Broken tree place

/-- The cause of a new status is there when it is published. -/
theorem Grown.traced_step (h : Grown F tree) (hgrows : Grows F tree tree')
    (htraced : Traced tree) : Traced tree' := by
  intro place status hexited hunconfirmed
  by_cases haborted : Aborted tree' place
  · exact Or.inl haborted
  cases hopen : (tree place).state.control.mode.isExited with
  | true =>
      rcases Mode.isExited_iff.mp hopen with ⟨status', hexited'⟩
      have hsame := hgrows.exited hexited'
      rw [hexited] at hsame
      cases hsame
      exact hgrows.broken (htraced place status hexited' hunconfirmed)
  | false =>
      rcases (h.step hgrows).unconfirmed_child hexited hunconfirmed haborted with
        ⟨key, status', hkey, hchild, hsubtree⟩
      have hbelow : Descends tree' place (key :: place) := .child hkey
      have hchild' := hgrows.exited_before hopen
        (Mode.isExited_iff.mpr ⟨status, hexited⟩) hbelow.ne hchild
      exact .of_child hkey
        (hgrows.broken (htraced (key :: place) status' hchild' hsubtree))

theorem Growth.traced (h : Growth F (seed V F) tree) : Traced tree := by
  induction h with
  | refl =>
      intro place status hexited
      cases hexited
  | tail hrun hgrows ih => exact (Growth.grown hrun).traced_step hgrows ih

/--
In every run of a tree, whatever its actors, their users and the executor do,
an actor that has exited publishes an unconfirmed subtree exactly if its own
task was aborted or that of somebody who was ever registered below it.
-/
theorem unconfirmed_traced_to_abort (F : Family) (tree : Tree V)
    (hgrowth : Growth F (seed V F) tree) (place : Place) (status : ExitStatus)
    (hexited : (tree place).state.control.mode = .exited status) :
    status.subtree = .unconfirmed <-> Broken tree place :=
  ⟨hgrowth.traced place status hexited,
    hgrowth.grown.unconfirmed_of_broken hexited⟩

/-- The executor drops the task of the child, and then the root is killed. -/
def brokenCouple : Couple Unit :=
  .stage households 60
    (startedCouple ++
      [(.child, .actor .abort), (.child, .actor (.user (.returns none))),
        (.root, .env (.request .kill)),
        (.root, .actor (.user (.returns none)))])
    .root 60

theorem brokenCouple_unconfirmed :
    (brokenCouple.tree households []).state.control.mode =
        .exited (.new .killed .unconfirmed) ∧
      Broken (brokenCouple.tree households) [] ∧
      ¬ Aborted (brokenCouple.tree households) [] := by
  have hexited : (brokenCouple.tree households []).state.control.mode =
      .exited (.new .killed .unconfirmed) := by decide +kernel
  have hcommitted : .aborting ∉
      (brokenCouple.tree households []).state.control.committed := by
    decide +kernel
  refine ⟨hexited, ?_, hcommitted⟩
  exact (unconfirmed_traced_to_abort households (brokenCouple.tree households)
    (Couple.stage_growth households 60 _ .root 60) [] _ hexited).mp rfl

end Loac

import Loac.EndOfLife.Blame
import Loac.Hierarchy.Couple

/-!
# Confirmation

An actor that publishes a terminated subtree has ended last: whatever was ever
registered below it had ended before and had confirmed its own subtree.
-/

namespace Loac

open Interleave

variable {V : Type} {A : ActorConfig} {F : Family} {tree tree' : Tree V}
  {place below : Place} {status : ExitStatus}

/-!
## One actor
-/

theorem step_moves {c c' : ActorState V} {event : Event (Input V) EnvAct}
    (hstep : (machine V A).step c event = some c') :
    c.state.control.Moves c'.state.control := by
  cases Machine.effect_of_step hstep with
  | nothing hsame =>
      rw [hsame]
      exact .stays rfl rfl
  | actor op next input b _ hexec => exact Op.control_moves hexec
  | env e henv => exact EnvAct.control_moves henv

/-- Nobody but the actor itself makes it exit. -/
theorem env_exited {c c' : ActorState V} {e : EnvAct}
    (hstep : (machine V A).step c (.env e) = some c')
    (hexited : c'.state.control.mode = .exited status) :
    c.state.control.mode = .exited status := by
  rcases Option.map_eq_some_iff.mp hstep with ⟨w', henv, hc'⟩
  subst hc'
  change w'.control.mode = _ at hexited
  rcases EnvAct.control_exec henv with heq | ⟨next, hpresses, hcontrol⟩
  · rwa [heq] at hexited
  · rw [hcontrol, Control.commit_mode] at hexited
    have hopen := hpresses.tentative.right
    rw [hexited] at hopen
    cases hopen

/-- An operation of an actor that has exited registers no child. -/
theorem next_exec {α : Type} {op : Op V α} {input : Input V} {w w' : World V}
    {a : α} (hexited : w.control.mode.isExited = true)
    (hdemands : LifeDemands A .any op w)
    (hexec : op.exec A input w = some (w', a)) :
    w'.kin.next = w.kin.next := by
  have haccounts : op.accounts = false := by
    cases op with
    | kin op =>
        have hopen : w.control.mode.isExited = false := hdemands.left
        rw [hexited] at hopen
        cases hopen
    | _ => rfl
  cases Op.kin_exec haccounts hexec with
  | inl hfollows => exact hfollows.next
  | inr hspawn =>
      have huser := Op.isUser_of_spawns hspawn.left
      cases op with
      | user site =>
          change w.control.mode.isExited = false at hdemands
          rw [hexited] at hdemands
          cases hdemands
      | _ => cases huser

theorem step_next {c c' : ActorState V} {event : Event (Input V) EnvAct}
    (hreach : Reachable A c) (hexited : c.state.control.mode = .exited status)
    (hstep : (machine V A).step c event = some c') :
    c'.state.kin.next = c.state.kin.next := by
  have hsafe := reachable_safe hreach
  cases Machine.effect_of_step hstep with
  | nothing hsame => rw [hsame]
  | env e henv => exact (EnvAct.kin_exec henv).next
  | actor op next input b hprog hexec =>
      rcases c with ⟨w, prog⟩
      subst hprog
      exact next_exec (Mode.isExited_iff.mpr ⟨status, hexited⟩)
        hsafe.demands hexec

theorem Ended.confirmed {w : World V} (h : Ended w status)
    (hkin : w.kin.Faithful) (hsubtree : status.subtree = .terminated) :
    w.kin.Confirmed := by
  have haborting : .aborting ∉ w.control.committed := by
    intro hmem
    have hreason : status.reason = .aborted := by
      rw [h.reason]
      exact if_pos hmem
    rw [status.aborted hreason] at hsubtree
    cases hsubtree
  have hsettled := h.settled haborting
  rw [hsettled.right] at hsubtree
  exact (hkin.confirmed_iff hsettled.left).mp hsubtree

/-!
## The tree
-/

structure Grown (F : Family) (tree : Tree V) : Prop where
  reachable : forall place, Reachable (F.config place) (tree place)
  coherent : Coherent F tree

theorem Growth.grown (h : Growth F (seed V F) tree) : Grown F tree where
  reachable := h.reaches
  coherent := h.fits_after (seed_coherent V F)

theorem Grown.step (h : Grown F tree) (hgrows : Grows F tree tree') :
    Grown F tree' where
  reachable := by
    intro place
    cases hgrows.at place with
    | inl hsame =>
        rw [hsame]
        exact h.reachable place
    | inr hstep =>
        rcases hstep with ⟨event, hstep⟩
        exact .step event (h.reachable place) trivial hstep
  coherent := hgrows.fits_after

def Confirms (tree : Tree V) (place : Place) : Prop :=
  exists status, (tree place).state.control.mode = .exited status ∧
    status.subtree = .terminated

theorem Grown.confirms_child (h : Grown F tree) (hconfirms : Confirms tree place)
    {key : Key} (hkey : key < (tree place).state.kin.next) :
    Confirms tree (key :: place) := by
  rcases hconfirms with ⟨status, hmode, hsubtree⟩
  have hinv : LifeInv (F.config place) .any (tree place).state :=
    (reachable_safe (h.reachable place)).inv
  have hconfirmed := (hinv.ended status hmode).confirmed hinv.kin hsubtree
  rcases hconfirmed key hkey with ⟨status', hexited, hsubtree'⟩
  rw [h.coherent.registered place key hkey] at hexited
  exact ⟨status', hexited, hsubtree'⟩

theorem Grown.confirms_below (h : Grown F tree) (hconfirms : Confirms tree place)
    (hbelow : Descends tree place below) : Confirms tree below := by
  induction hbelow with
  | child hkey => exact h.confirms_child hconfirms hkey
  | further _ hkey ih => exact h.confirms_child ih hkey

theorem Grown.next_step (h : Grown F tree) (hgrows : Grows F tree tree')
    (hexited : (tree place).state.control.mode = .exited status) :
    (tree' place).state.kin.next = (tree place).state.kin.next := by
  cases hgrows.at place with
  | inl hsame => rw [hsame]
  | inr hstep =>
      rcases hstep with ⟨event, hstep⟩
      exact step_next (h.reachable place) hexited hstep

theorem Grows.exited (hgrows : Grows F tree tree')
    (hexited : (tree place).state.control.mode = .exited status) :
    (tree' place).state.control.mode = .exited status := by
  cases hgrows.at place with
  | inl hsame => rw [hsame, hexited]
  | inr hstep =>
      rcases hstep with ⟨event, hstep⟩
      exact ((step_moves hstep).exited hexited).left

/-- Nothing is registered any more below an actor that confirmed. -/
theorem Grown.descends_step (h : Grown F tree) (hgrows : Grows F tree tree')
    (hconfirms : Confirms tree place) (hbelow : Descends tree' place below) :
    Descends tree place below := by
  have hnext : forall {place : Place}, Confirms tree place ->
      (tree' place).state.kin.next = (tree place).state.kin.next := by
    intro place hconfirms
    rcases hconfirms with ⟨status, hmode, _⟩
    exact h.next_step hgrows hmode
  induction hbelow with
  | child hkey =>
      rw [hnext hconfirms] at hkey
      exact .child hkey
  | further _ hkey ih =>
      rw [hnext (h.confirms_below hconfirms ih)] at hkey
      exact .further ih hkey

theorem Grown.descends_run (h : Grown F tree) (hrun : Growth F tree tree')
    (hconfirms : Confirms tree place) (hbelow : Descends tree' place below) :
    Descends tree place below := by
  induction hrun using Relation.ReflTransGen.head_induction_on with
  | refl => exact hbelow
  | @head first second hgrows _ ih =>
      have hgrows : Grows F first second := hgrows
      have hnext : Confirms second place := by
        rcases hconfirms with ⟨status, hmode, hsubtree⟩
        exact ⟨status, hgrows.exited hmode, hsubtree⟩
      exact h.descends_step hgrows hconfirms (ih (h.step hgrows) hnext)

theorem Descends.ne (h : Descends tree place below) : below ≠ place := by
  have hlength : place.length < below.length := by
    induction h with
    | child _ => simp
    | further _ _ ih =>
        rw [List.length_cons]
        omega
  intro heq
  rw [heq] at hlength
  exact Nat.lt_irrefl _ hlength

/-- While one actor exits, nobody else does. -/
theorem Grows.exited_before (hgrows : Grows F tree tree')
    (hopen : (tree place).state.control.mode.isExited = false)
    (hexited : (tree' place).state.control.mode.isExited = true)
    (hne : below ≠ place)
    (hbelow : (tree' below).state.control.mode = .exited status) :
    (tree below).state.control.mode = .exited status := by
  rcases hgrows with ⟨mover, event, _, hobserves, _⟩
  have hstill {other : Place} {status : ExitStatus} (hother : other ≠ mover)
      (hmode : (tree' other).state.control.mode = .exited status) :
      (tree other).state.control.mode = .exited status := by
    cases hobserves other hother with
    | nothing hsame => rwa [hsame] at hmode
    | something e henv => exact env_exited henv hmode
  have hmover : place = mover := by
    by_contra hother
    rcases Mode.isExited_iff.mp hexited with ⟨status', hmode⟩
    rw [hstill hother hmode] at hopen
    cases hopen
  exact hstill (hmover ▸ hne) hbelow

/--
Let an actor publish its status, and let the tree go on from there.  The reason
comes from its own modes.  If the subtree is terminated, then whoever was ever
registered below has confirmed before, for good.  If somebody below has
published anything else, the subtree is unconfirmed.
-/
theorem publication_confirms_subtree (F : Family) (tree tree' later : Tree V)
    (hgrowth : Growth F (seed V F) tree) (hgrows : Grows F tree tree')
    (hlater : Growth F tree' later) (place : Place) (status : ExitStatus)
    (hbefore : (tree place).state.control.mode.isExited = false)
    (hafter : (tree' place).state.control.mode = .exited status) :
    status.reason = localReason (tree' place).state.control.committed ∧
      (status.subtree = .terminated ->
        forall below, Descends later place below ->
          exists status', status'.subtree = .terminated ∧
            (tree below).state.control.mode = .exited status' ∧
            (later below).state.control.mode = .exited status') ∧
      (forall below status', Descends tree' place below ->
        (tree below).state.control.mode = .exited status' ->
          status'.subtree = .unconfirmed -> status.subtree = .unconfirmed) := by
  have hgrown := hgrowth.grown
  have hgrown' := hgrown.step hgrows
  have hinv : LifeInv (F.config place) .any (tree' place).state :=
    (reachable_safe (hgrown'.reachable place)).inv
  refine ⟨(hinv.ended status hafter).reason, ?_, ?_⟩
  · intro hsubtree below hbelow
    have hconfirms : Confirms tree' place := ⟨status, hafter, hsubtree⟩
    have hbelow' := hgrown'.descends_run hlater hconfirms hbelow
    rcases hgrown'.confirms_below hconfirms hbelow' with
      ⟨status', hmode, hsubtree'⟩
    refine ⟨status', hsubtree', ?_, ?_⟩
    · exact hgrows.exited_before hbefore
        (Mode.isExited_iff.mpr ⟨status, hafter⟩) hbelow'.ne hmode
    · clear hbelow hbelow'
      induction hlater with
      | refl => exact hmode
      | tail _ hnext ih => exact Grows.exited hnext ih
  · intro below status' hbelow hmode hunconfirmed
    cases hsubtree : status.subtree with
    | unconfirmed => rfl
    | terminated =>
        rcases hgrown'.confirms_below ⟨status, hafter, hsubtree⟩ hbelow with
          ⟨status'', hmode', hsubtree'⟩
        rw [hgrows.exited hmode] at hmode'
        cases hmode'
        rw [hunconfirmed] at hsubtree'
        cases hsubtree'

/-- Actors without a mailbox, with as many children as they like. -/
def households : Family where
  config := fun place =>
    { solitary with children := some none, parent := !place.isEmpty }
  root := rfl
  child := fun _ _ => rfl

/-- The root registers a child, and both are suspended while they start. -/
def startedCouple : List (Couple.Mover × Event (Input Unit) EnvAct) :=
  [(.root, .actor (.spawn true)), (.root, .actor (.user .spawnChild)),
    (.root, .actor (.user (.returns none))),
    (.root, .actor (.user (.returns none))),
    (.child, .actor (.user (.returns none))),
    (.child, .actor (.user (.returns none)))]

def killedCouple (steps : Nat) : Couple Unit :=
  .stage households 60
    (startedCouple ++
      [(.child, .env (.request .kill)),
        (.child, .actor (.user (.returns none))),
        (.root, .env (.request .kill)),
        (.root, .actor (.user (.returns none)))])
    .root steps

/-- The root confirms the subtree that its child had confirmed before. -/
theorem killedCouple_confirms :
    Descends ((killedCouple 21).tree households) [] [0] ∧
      exists status', status'.subtree = .terminated ∧
        ((killedCouple 20).tree households [0]).state.control.mode =
          .exited status' := by
  have hbelow : Descends ((killedCouple 21).tree households) [] [0] :=
    .child (by decide +kernel)
  rcases (publication_confirms_subtree households
    ((killedCouple 20).tree households) ((killedCouple 21).tree households)
    ((killedCouple 21).tree households)
    (Couple.stage_growth households 60 _ .root 20)
    (Couple.stage_grows households 60 _ .root 20 (by decide +kernel)) .refl []
    (.new .killed .terminated) (by decide +kernel)
    (by decide +kernel)).right.left rfl [0] hbelow with
    ⟨status', hsubtree, hexited, _⟩
  exact ⟨hbelow, status', hsubtree, hexited⟩

end Loac

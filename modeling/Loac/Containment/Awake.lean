import Loac.Containment.Works

/-!
# Waiting outside of turns

The actor task is suspended in the turns of its scheduler and in its lifecycle
work.  What is asked of a suspended turn is not asked of the rest, so lifecycle
work is described by operations that suspend no turn.
-/

namespace Loac

open Interleave Interleave.Prog

variable {V α β γ : Type} {A : ActorConfig} {S : Vocabulary (Op V)}
  {parts : List Part}

def Site.turns : Site -> Option Mode
  | .turn expectedMode => some expectedMode
  | .finishReplies => some .stopping
  | _ => none

def Op.sleeps : Op V α -> Bool
  | .suspend site => site.turns.isSome
  | _ => false

def HasAwake (S : Vocabulary (Op V)) (parts : List Part) : Prop :=
  forall {α : Type} (op : Op V α), parts.contains op.part = true ->
    op.sleeps = false -> S.uses op

/-- The operations of some parts that suspend no turn, whatever they give. -/
def awake (V : Type) (parts : List Part) : Vocabulary (Op V) where
  uses := fun op => parts.contains op.part = true ∧ op.sleeps = false
  gives := fun _ _ => True

theorem awake_has : HasAwake (awake V parts) parts :=
  fun _ hop hsleeps => ⟨hop, hsleeps⟩

theorem HasAwake.mono {few : List Part} (h : HasAwake S parts)
    (hsub : few.all parts.contains = true) : HasAwake S few := by
  intro α op hop
  apply h op
  have hall := List.all_eq_true.mp hsub
  exact hall _ (List.contains_iff_mem.mp hop)

theorem HasAwake.perform (h : HasAwake S parts) {op : Op V α}
    (hop : parts.contains op.part = true) (hsleeps : op.sleeps = false) :
    (Prog.perform op).Uses S :=
  Within.perform (h op hop hsleeps) (fun _ _ => trivial)

theorem Op.sleeps_parks {op : Op V α} (h : op.sleeps = true) :
    op.part = .parks := by
  cases op with
  | suspend site => cases site <;> first
      | rfl
      | cases h
  | _ => cases h

theorem HasAwake.has {few : List Part} (h : HasAwake S parts)
    (hsub : few.all parts.contains = true)
    (hparks : few.contains .parks = false) : Has S few := by
  intro α op hop
  apply h.mono hsub op hop
  cases hsleeps : op.sleeps with
  | false => rfl
  | true =>
      rw [Op.sleeps_parks hsleeps, hparks] at hop
      cases hop

theorem awake_keeps {σ : Type} {M : Machine (Op V) σ (Input V) EnvAct Unit}
    {D : Discipline M} {K : σ -> Prop} {few : List Part}
    (h : (awake V parts).Keeps D K) (hsub : few.all parts.contains = true)
    (hparks : few.contains .parks = false) : (repertoire V few).Keeps D K where
  stable := h.stable
  op := by
    intro β op hop
    have hall : HasAwake (awake V parts) parts := awake_has
    exact h.op op (hall.has hsub hparks op hop)

/-!
## Waiting
-/

def Site.works (site : Site) : Prop :=
  site.part = .parks ∧ site.turns = none

theorem suspend_awake (h : HasAwake S [.parks]) {site : Site}
    (hsite : site.works) : (suspend site : P V Unit).Uses S := by
  apply h.perform
  · show List.contains [.parks] site.part = true
    rw [hsite.left]
    rfl
  · show site.turns.isSome = false
    rw [hsite.right]
    rfl

theorem select_awake (h : HasAwake S selectParts) {site : Site}
    (hsite : site.works) (start : β) {poll : β -> P V (β ⊕ γ)}
    (hpoll : forall b, (poll b).Uses S) :
    (select site start poll : P V (β ⊕ γ)).Uses S := by
  have hsuspend := suspend_awake (h.mono rfl) hsite
  refine Within.onExit (Within.repeated fun b => ?_) (h.perform rfl rfl)
  refine Within.seq (h.perform rfl rfl) fun notified => ?_
  refine Within.ite (by trivial) ?_
  refine Within.seq (hpoll b) fun r => ?_
  cases r with
  | inl _ => exact Within.seq hsuspend (fun _ => trivial)
  | inr _ => trivial

theorem awaitActorWork_awake (h : HasAwake S workParts) {site : Site}
    (hsite : site.works) (start : β) {future : β -> P V (β ⊕ γ)}
    {drop : P V Unit} (hfuture : forall b, (future b).Uses S)
    (hdrop : drop.Uses S) :
    (awaitActorWork site start future drop : P V (Work γ)).Uses S := by
  have hfails : Has S [.fails] := h.has rfl rfl
  refine Within.repeated fun b => ?_
  refine Within.seq (h.perform rfl rfl) fun mode => ?_
  apply Within.ite
  · exact Within.seq (dropFuturePanicked_uses hfails hdrop) (fun _ => trivial)
  · refine Within.seq (select_awake (h.mono rfl) hsite b
      (guard_uses hfails hfuture hdrop)) fun r => ?_
    cases r <;> trivial

theorem awaitUser_awake (h : HasAwake S (.retires :: workParts)) {site : Site}
    (hsite : site.works) {pollSite dropSite : UserSite}
    (hpoll : Has S [pollSite.part]) (hdrop : dropSite.part = .retires) :
    (awaitActorWork site () (fun _ => pollUser pollSite)
      (callUser dropSite) : P V (Work Unit)).Uses S := by
  refine awaitActorWork_awake (h.mono rfl) hsite () (fun _ => pollUser_uses hpoll)
    (callUser_uses ?_)
  rw [hdrop]
  exact h.has rfl rfl

/-!
## Lifecycle work
-/

theorem runInit_awake (h : HasAwake S initParts) :
    (runInit : P V (Work Unit)).Uses S := by
  refine Within.seq (h.perform rfl rfl) fun began => ?_
  apply Within.ite
  · refine Within.bind (callUser_uses (h.has rfl rfl)).attempt fun r _ => ?_
    cases r with
    | some _ =>
        exact awaitUser_awake (h.mono rfl) ⟨rfl, rfl⟩ (h.has rfl rfl) rfl
    | none =>
        exact Within.seq (containPanic_uses (h.has rfl rfl)) (fun _ => trivial)
  · exact Within.seq (dropUserValue_uses (h.has rfl rfl)
      (callUser_uses (h.has rfl rfl))) (fun _ => trivial)

theorem handleChildExit_awake (h : HasAwake S hookParts) (event : ChildExit) :
    (handleChildExit event : P V (Work Unit)).Uses S := by
  refine Within.seq (h.perform rfl rfl) fun reaped => ?_
  apply Within.ite
  · refine Within.seq (h.perform rfl rfl) fun opened => ?_
    apply Within.ite
    · exact awaitUser_awake (h.mono rfl) ⟨rfl, rfl⟩ (h.has rfl rfl) rfl
    · trivial
  · trivial

theorem finishChildren_awake (h : HasAwake S gracefulParts) (shutdown : Shutdown)
    (keys : Option (List Key)) :
    (finishChildren shutdown keys :
      P V (Option (List Key) ⊕ Unit)).Uses S := by
  have hwait : forall keys : List Key,
      (finishChildren.finishChildrenWait keys :
        P V (Option (List Key) ⊕ Unit)).Uses S := by
    intro keys
    refine Within.seq (pollWait_uses (h.has rfl rfl) keys) fun r => ?_
    cases r <;> trivial
  cases keys with
  | some keys => exact hwait keys
  | none =>
      exact Within.seq (requestAll_uses (h.has rfl rfl) shutdown)
        (fun _ => Within.seq (h.perform rfl rfl) hwait)

theorem gracefulFinish_awake (h : HasAwake S gracefulParts) (shutdown : Shutdown)
    (reason : ExitReason) :
    (gracefulFinish shutdown reason : P V (Work Unit)).Uses S := by
  refine Within.seq (h.perform rfl rfl) fun _ => ?_
  refine Within.seq (awaitActorWork_awake (h.mono rfl) ⟨rfl, rfl⟩ none
    (finishChildren_awake h shutdown) trivial) fun work => ?_
  cases work with
  | complete _ =>
      exact awaitUser_awake (h.mono rfl) ⟨rfl, rfl⟩ (h.has rfl rfl) rfl
  | killed => trivial
  | panicked => trivial
  | dropPanicked _ => trivial

end Loac

import Loac.Course.Frame
import Loac.EndOfLife.Blame

/-!
# The order of user code and the reason of the end

The user code of an actor runs in the order of its phases.  The stop hook runs
last, when nothing is left, and the published reason tells how the life ended.
-/

namespace Loac

open Interleave

variable {V : Type} {A : ActorConfig} {w : World V}

/-- The user code that the task is about to run. -/
def userAt (c : ActorState V) : Option UserSite :=
  match c.prog with
  | .act (.user site) _ => some site
  | _ => none

/-- What a published status says about the life that it ends. -/
structure Conclusive (status : ExitStatus) (w : World V) : Prop where
  /-- The stop hook returned, and no hard mode was committed. -/
  graceful : status.reason = .stopped ∨ status.reason = .drained ->
    Entry.user (.stopPoll status.reason) .ready ∈ w.life.course ∧
      .killing ∉ w.control.committed ∧ .failing ∉ w.control.committed ∧
        .aborting ∉ w.control.committed
  killed : status.reason = .killed ->
    .killing ∈ w.control.committed ∧ .failing ∉ w.control.committed
  panicked : status.reason = .panicked ->
    .failing ∈ w.control.committed ∧ .killing ∉ w.control.committed

/-!
## Reasons
-/

theorem History.not_both {mode : Mode} {committed : List Mode}
    (h : History mode committed) (hkilling : .killing ∈ committed) :
    .failing ∉ committed := by
  induction h with
  | start =>
      intro hfailing
      cases hfailing
      rename_i hmem
      cases hmem
  | @advance mode next committed hbefore hadvances ih =>
      intro hfailing
      have hlast : forall {past : Mode}, past.isHard = true ->
          past ∈ committed -> next = .aborting ∨ next.isExited = true := by
        intro past hhard hmem
        apply hadvances.from_hard
        rcases hbefore.hard_past hmem hhard with heq | heq | hexited
        · rw [heq]
          exact hhard
        · rw [heq]
          rfl
        · exact Mode.isHard_of_isExited hexited
      rw [List.mem_cons] at hkilling hfailing
      cases hkilling with
      | inl hnext =>
          cases hfailing with
          | inl hnext' =>
              rw [← hnext] at hnext'
              cases hnext'
          | inr hmem =>
              have hends := hlast rfl hmem
              rw [← hnext] at hends
              rcases hends with hends | hends <;> cases hends
      | inr hmem =>
          cases hfailing with
          | inl hnext =>
              have hends := hlast rfl hmem
              rw [← hnext] at hends
              rcases hends with hends | hends <;> cases hends
          | inr hmem' => exact ih hmem hmem'

theorem localReason_graceful {committed : List Mode}
    (h : localReason committed = .stopped ∨ localReason committed = .drained) :
    .killing ∉ committed ∧ .failing ∉ committed ∧ .aborting ∉ committed := by
  unfold localReason at h
  by_cases haborting : Mode.aborting ∈ committed
  · simp [haborting] at h
  · by_cases hkilling : Mode.killing ∈ committed
    · simp [haborting, hkilling] at h
    · by_cases hfailing : Mode.failing ∈ committed
      · simp [haborting, hkilling, hfailing] at h
      · exact ⟨hkilling, hfailing, haborting⟩

theorem localReason_killed {committed : List Mode}
    (h : localReason committed = .killed) : .killing ∈ committed := by
  unfold localReason at h
  split at h
  · cases h
  · split at h
    · assumption
    · split at h
      · cases h
      · split at h <;> cases h

theorem localReason_panicked {committed : List Mode}
    (h : localReason committed = .panicked) :
    .failing ∈ committed ∧ .killing ∉ committed := by
  unfold localReason at h
  split at h
  · cases h
  · split at h
    · cases h
    · split at h
      · exact ⟨by assumption, by assumption⟩
      · split at h <;> cases h

theorem conclusive_of_exited {c : ActorState V} (h : Reachable A c)
    {status : ExitStatus} (hmode : c.state.control.mode = .exited status) :
    Conclusive status c.state := by
  have hinv : LifeInv A .any c.state := (reachable_safe h).inv
  have hended := hinv.ended status hmode
  have hearned := (course_safe h).inv.earned status hmode
  constructor
  · intro hreason
    refine ⟨hearned ?_, ?_⟩
    · cases hreason with
      | inl hstopped =>
          rw [hstopped]
          rfl
      | inr hdrained =>
          rw [hdrained]
          rfl
    · rw [hended.reason] at hreason
      exact localReason_graceful hreason
  · intro hreason
    rw [hended.reason] at hreason
    have hkilling := localReason_killed hreason
    exact ⟨hkilling, hinv.history.not_both hkilling⟩
  · intro hreason
    rw [hended.reason] at hreason
    exact localReason_panicked hreason

/-!
## The order of a life
-/

/-- The stop hook finds nothing left, and every child that ever was has ended. -/
theorem quiescent_at_stop {c : ActorState V} (h : Reachable A c)
    {reason : ExitReason} (hsite : userAt c = some (.stopPoll reason)) :
    Quiescent c.state ∧ forall key, key < c.state.kin.next ->
      (c.state.kin.children key).mode.isExited = true := by
  have hsafe := course_safe h
  have hinv : LifeInv A .any c.state := (reachable_safe h).inv
  have hquiescent : Quiescent c.state := by
    rcases c with ⟨w, prog⟩
    cases prog with
    | act op next =>
        cases op with
        | user site =>
            cases hsite
            exact hsafe.demands.right rfl
        | _ => cases hsite
    | _ => cases hsite
  refine ⟨hquiescent, ?_⟩
  intro key hkey
  rcases hinv.kin.noted key hkey (by
    rw [hquiescent.actors]
    exact List.not_mem_nil) with ⟨status, hmode, _⟩
  rw [hmode]
  rfl

/--
User code runs in the order of the phases.  The stop hook runs when there are
no replies, no accepted messages, and no children that have not ended, and the
published reason matches the life.
-/
theorem user_code_in_order (A : ActorConfig) (c : ActorState V)
    (h : Reachable A c) :
    (Phase.after c.state.life.course).isSome = true ∧
    (forall reason, userAt c = some (.stopPoll reason) ->
      Quiescent c.state ∧ forall key, key < c.state.kin.next ->
        (c.state.kin.children key).mode.isExited = true) ∧
    (forall status, c.state.control.mode = .exited status ->
      Conclusive status c.state) :=
  ⟨(course_safe h).inv.ordered, fun _ hsite => quiescent_at_stop h hsite,
    fun _ hmode => conclusive_of_exited h hmode⟩

def stoppedAlone : ActorState Unit :=
  (machine Unit solitary).stage .next 60
    [.actor (.spawn true), silent, ready, silent, .env (.request .stop), ready,
      ready, silent, silent] 60 (initial Unit solitary)

/-- The statement applies to an actor that stops. -/
theorem stoppedAlone_in_order :
    Phase.after stoppedAlone.state.life.course = some .complete ∧
      stoppedAlone.state.control.mode =
        .exited (.new .stopped .terminated) ∧
      Conclusive (.new .stopped .terminated)
        stoppedAlone.state := by
  have hmode : stoppedAlone.state.control.mode =
      .exited (.new .stopped .terminated) := by
    decide +kernel
  exact ⟨by decide +kernel, hmode, (user_code_in_order solitary stoppedAlone
    (Machine.stage_reaches (fun _ => trivial) (fun _ _ _ => trivial) _ _ _)
    ).right.right _ hmode⟩

end Loac

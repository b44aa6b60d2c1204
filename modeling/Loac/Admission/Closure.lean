import Loac.Admission.Lossless
import Loac.Course.Frame

/-!
# Nothing closes under a running actor

The inbox is closed by every teardown, by the task, by its frame and by an
unstarted spawner.  All of them leave `running` first.  So no client ever finds
a closed transport behind an open gate, and neither does the actor task.
-/

namespace Loac

open Interleave

variable {V M W : Type} {A : ActorConfig}

/-- No transport of a running actor closes, and nobody believes it did. -/
structure Market.Open (market : Market V M W) : Prop where
  closed : market.actor.state.mail.closed = true ->
    market.actor.state.control.mode ≠ .running
  /-- Destroying the inbox closes it first, and nothing is left in the end. -/
  destroyed : isOver market.actor = true ->
    market.actor.state.control.mode ≠ .running
  /-- The actor task neither misses its inbox nor sees an impossible mode. -/
  task : point market.actor ≠ some .inboxClosed ∧
    point market.actor ≠ some .impossibleMode
  /-- No client fails the actor, and none unwinds. -/
  clients : forall errand, errand ∈ market.errands ->
    errand.prog ≠ .throw ∧ forall next, errand.prog ≠ .act .beginFailure next

theorem point_marks {c : ActorState V} (h : Reachable A c) {p : Point}
    (hpoint : point c = some p) : p.part = .marks := by
  have hsafe := course_safe h
  rcases c with ⟨w, prog⟩
  cases prog with
  | act op next =>
      cases op with
      | reach q =>
          cases hpoint
          exact hsafe.demands
      | _ => cases hpoint
  | _ => cases hpoint

theorem Market.Inv.fails_nobody {market : Market V M W} (h : market.Inv A)
    {errand : Errand M W} (hmem : errand ∈ market.errands) :
    errand.prog ≠ .throw ∧
      forall next, errand.prog ≠ .act .beginFailure next := by
  have hsafe := h.safe errand hmem
  unfold Market.config at hsafe
  constructor
  · intro hprog
    rw [hprog] at hsafe
    exact hsafe.unwound (fun _ _ _ _ _ _ hfalse => hfalse)
  · intro next hprog
    rw [hprog] at hsafe
    have hdemands : False := hsafe.demands
    exact hdemands

/--
Whoever takes which steps, a closed inbox belongs to an actor that has left
`running`, and no branch that presumes the opposite is ever taken.
-/
theorem transport_outlives_running (A : ActorConfig) (market : Market V M W)
    (h : Market.Runs A (.new V M W A) market) : market.Open := by
  have hinv := (Market.Inv.new V M W A).run h
  constructor
  · exact hinv.gated
  · exact fun hover => (squared_of_isOver hinv.actor hover).emptied.left
  · constructor
    · intro hpoint
      cases point_marks hinv.actor hpoint
    · intro hpoint
      cases point_marks hinv.actor hpoint
  · exact fun errand hmem => hinv.fails_nobody hmem

/-- The spawner is dropped, and a client comes too late. -/
def deserted : Market Unit Nat Unit :=
  Market.play counter
    ([.actor (.actor (.spawn false))] ++
      List.replicate 40 (.actor (.actor .next)) ++
      [.start (.trySend 9), .errand 0 .next, .errand 0 .next])
    (.new Unit Nat Unit counter)

/-- The statement applies to an actor whose inbox is closed and destroyed. -/
theorem deserted_open :
    deserted.actor.state.mail.closed = true ∧ isOver deserted.actor = true ∧
      deserted.errands.length = 1 ∧ deserted.Open :=
  ⟨by decide +kernel, by decide +kernel, by decide +kernel,
    transport_outlives_running counter deserted (Market.Runs.refl.play _)⟩

end Loac

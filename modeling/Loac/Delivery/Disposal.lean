import Loac.Delivery.Frame
import Loac.EndOfLife.Blame

/-!
# Accepted messages

Every accepted envelope is in one place.  While the actor task attempts a
dispatch, that place is its hand, which holds one envelope at most and none
where the task is suspended.  An actor that is gone has nothing queued.
-/

namespace Loac

open Interleave

variable {V : Type} {A : ActorConfig} {c : ActorState V} {mail : Mail V}

theorem settled_of_suspended (h : Reachable A c) {site : Site}
    (hsuspended : suspendedAt c = some site) : Settled c.state := by
  have hsafe := delivery_safe h
  rcases c with ⟨w, prog⟩
  cases prog with
  | act op next =>
      cases op with
      | suspend site => exact hsafe.demands
      | _ => cases hsuspended
  | _ => cases hsuspended

theorem Mail.Conserved.count (h : mail.Conserved) (e : Envelope) :
    mail.queue.count e + mail.hand.count e + mail.dispatched.count e +
        mail.rejected.count e =
      if e ∈ mail.admitted then 1 else 0 := by
  have hcount := List.perm_iff_count.mp h.places e
  simp only [List.count_append] at hcount
  rw [hcount]
  by_cases hmem : e ∈ mail.admitted
  · rw [if_pos hmem]
    exact List.count_eq_one_of_mem (List.Nodup.of_map _ h.distinct) hmem
  · rw [if_neg hmem]
    exact List.count_eq_zero.mpr hmem

/--
An accepted envelope is queued, in the hand of the actor task, dispatched or
rejected, and it is so once.  The hand holds at most one envelope and is empty
where the task is suspended.  Nothing is left when the actor has exited or its
life is over.
-/
theorem accepted_disposed_once (A : ActorConfig) (c : ActorState V)
    (h : Reachable A c) :
    (forall e, c.state.mail.queue.count e + c.state.mail.hand.count e +
        c.state.mail.dispatched.count e + c.state.mail.rejected.count e =
      if e ∈ c.state.mail.admitted then 1 else 0) ∧
    c.state.mail.hand.length <= 1 ∧
    (forall site, suspendedAt c = some site -> c.state.mail.hand = []) ∧
    (c.state.control.mode.isExited = true ∨ isOver c = true ->
      c.state.mail.queue = [] ∧ c.state.mail.hand = []) := by
  have hinv : MailInv c.state := (delivery_safe h).inv
  refine ⟨hinv.conserved.count, hinv.hand, ?_, ?_⟩
  · intro site hsuspended
    exact (settled_of_suspended h hsuspended).inHand
  · intro hend
    cases hend with
    | inl hexited => exact hinv.exited hexited
    | inr hover =>
        have hsquared := squared_of_isOver h hover
        exact ⟨hsquared.emptied.right, hsquared.hand⟩

def killedAtSecond : ActorState Unit :=
  (machine Unit sociable).stage .next 100
    ([.env .reserve, .env (.admitEnvelope .call), .env .reserve,
      .env (.admitEnvelope .call), .actor (.spawn true), silent, ready, silent,
      .env (.request .kill)] ++ List.replicate 6 silent) 100
    (initial Unit sociable)

/-- The first call was dispatched and the second one rejected, and that is all. -/
theorem killedAtSecond_disposed :
    isOver killedAtSecond = true ∧
      killedAtSecond.state.mail.admitted = [⟨0, .call⟩, ⟨1, .call⟩] ∧
      killedAtSecond.state.mail.dispatched = [⟨0, .call⟩] ∧
      killedAtSecond.state.mail.rejected.count ⟨1, .call⟩ = 1 ∧
      killedAtSecond.state.mail.queue = [] ∧
      killedAtSecond.state.mail.hand = [] := by
  have hover : isOver killedAtSecond = true := by decide +kernel
  have hadmitted : killedAtSecond.state.mail.admitted =
      [⟨0, .call⟩, ⟨1, .call⟩] := by decide +kernel
  have hdispatched : killedAtSecond.state.mail.dispatched = [⟨0, .call⟩] := by
    decide +kernel
  rcases accepted_disposed_once sociable killedAtSecond
      (Machine.stage_reaches (fun _ => trivial) (fun _ _ _ => trivial) _ _ _) with
    ⟨hcount, _, _, hempty⟩
  rcases hempty (Or.inr hover) with ⟨hqueue, hhand⟩
  have hsecond := hcount ⟨1, .call⟩
  rw [hqueue, hhand, hdispatched, hadmitted] at hsecond
  have hrejected : killedAtSecond.state.mail.rejected.count ⟨1, .call⟩ = 1 := by
    simpa using hsecond
  exact ⟨hover, hadmitted, hdispatched, hrejected, hqueue, hhand⟩

/-- A call that the actor task has taken out of the queue a moment ago. -/
def takenCall : ActorState Unit :=
  (machine Unit sociable).stage .next 100
    [.env .reserve, .env (.admitEnvelope .call), .actor (.spawn true),
      silent, ready, silent] 15 (initial Unit sociable)

theorem takenCall_reachable : Reachable sociable takenCall :=
  Machine.stage_reaches (fun _ => trivial) (fun _ _ _ => trivial) _ _ _

/-- Between the queue and the dispatch gate an envelope is in neither place. -/
theorem takenCall_undecided :
    Reachable sociable takenCall ∧
      exists e, e ∈ takenCall.state.mail.admitted ∧
        e ∉ takenCall.state.mail.queue ∧
        e ∉ takenCall.state.mail.dispatched ∧
        e ∉ takenCall.state.mail.rejected := by
  exact ⟨takenCall_reachable, { id := 0, kind := .call }, by decide +kernel,
    by decide +kernel, by decide +kernel, by decide +kernel⟩

end Loac

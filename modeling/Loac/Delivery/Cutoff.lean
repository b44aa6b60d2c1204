import Loac.Delivery.Disposal

/-!
# The cutoff of dispatch

Dispatch follows the order of admission.  A shutdown closes admission, and
every shutdown but a Drain closes dispatch as well.  A Drain that comes to its
graceful finish has attempted everything that was ever admitted.
-/

namespace Loac

open Interleave

variable {V α : Type} {A : ActorConfig} {c c' : ActorState V}
  {w w' w'' : World V}

/-!
## Closed gates
-/

theorem Op.admitted_exec {op : Op V α} {input : Input V} {a : α}
    (hexec : op.exec A input w = some (w', a)) :
    w'.mail.admitted = w.mail.admitted := by
  cases hmail : op.isMail with
  | false =>
      rcases Op.mail_exec hmail hexec with ⟨_, hsame, _⟩
      rw [hsame]
  | true =>
      cases op with
      | mail op =>
          cases hexec
          cases op <;> grind [MailOp.exec, Mail.pollRecv, Mail.tryRecv,
            Mail.replyIsClosed, Mail.reject, Mail.beginDispatch,
            Mail.beginCompletion, Mail.respond]
      | _ => cases hmail

theorem Op.dispatched_exec {op : Op V α} {input : Input V} {a : α}
    (hcut : Cut w) (hexec : op.exec A input w = some (w', a)) :
    w'.mail.dispatched = w.mail.dispatched := by
  cases hmail : op.isMail with
  | false =>
      rcases Op.mail_exec hmail hexec with ⟨_, hsame, _⟩
      rw [hsame]
  | true =>
      cases op with
      | mail op =>
          cases hexec
          cases op with
          | beginDispatch envelope =>
              show (w.mail.beginDispatch w.control.mode envelope).1.dispatched =
                _
              unfold Mail.beginDispatch
              cases hresult : (Loac.beginDispatch w.control.mode).2 with
              | error error =>
                  simp only [Mail.reject]
                  split <;> rfl
              | ok _ =>
                  exfalso
                  cases hmode : w.control.mode with
                  | running => exact hcut.left hmode
                  | draining => exact hcut.right hmode
                  | _ =>
                      rw [hmode] at hresult
                      cases hresult
          | _ => grind [MailOp.exec, Mail.pollRecv, Mail.tryRecv,
              Mail.replyIsClosed, Mail.reject, Mail.beginCompletion,
              Mail.respond]
      | _ => cases hmail

structure Gated (w w' : World V) : Prop where
  closing : Closing w -> Closing w' ∧ w'.mail.admitted = w.mail.admitted
  cut : Cut w -> Cut w' ∧ w'.mail.dispatched = w.mail.dispatched

theorem Gated.refl (w : World V) : Gated w w where
  closing := fun h => ⟨h, rfl⟩
  cut := fun h => ⟨h, rfl⟩

theorem Gated.trans (h : Gated w w') (h' : Gated w' w'') : Gated w w'' where
  closing := by
    intro hw
    have hmiddle := h.closing hw
    have hlast := h'.closing hmiddle.left
    exact ⟨hlast.left, hlast.right.trans hmiddle.right⟩
  cut := by
    intro hw
    have hmiddle := h.cut hw
    have hlast := h'.cut hmiddle.left
    exact ⟨hlast.left, hlast.right.trans hmiddle.right⟩

theorem gated_effect (h : Machine.Effect (machine V A) c w) :
    Gated c.state w := by
  cases h with
  | nothing hsame =>
      rw [hsame]
      exact .refl _
  | actor op next input b _ hexec =>
      have hexec' : op.exec A input c.state = some (w, b) := hexec
      have hmoves := Op.control_moves hexec'
      exact {
        closing := fun h => ⟨hmoves.closing h, Op.admitted_exec hexec'⟩
        cut := fun h => ⟨hmoves.cut h, Op.dispatched_exec h hexec'⟩ }
  | env e henv =>
      have henv' : e.exec A c.state = some w := henv
      have hmoves := EnvAct.control_moves henv'
      rcases EnvAct.mail_exec henv' with
        ⟨_, _, _, _, admitted, _, _, hmail, _, hqueue⟩
      exact {
        closing := by
          intro h
          refine ⟨hmoves.closing h, ?_⟩
          rcases hqueue with ⟨_, hsame⟩ | ⟨hrunning, _⟩
          · rw [hmail]
            exact hsame
          · exact absurd hrunning h
        cut := by
          intro h
          refine ⟨hmoves.cut h, ?_⟩
          rw [hmail] }

theorem gated_run
    (h : Machine.Reaches (machine V A) Machine.Anything c c') :
    Gated c.state c'.state :=
  h.relates Gated.refl (fun _ _ _ => Gated.trans) (fun _ _ => gated_effect)

/-!
## Attempts
-/

theorem mem_dropLast_or_getLast {l : List α} {a : α} (h : a ∈ l) :
    a ∈ l.dropLast ∨ l.getLast? = some a := by
  have hne : l ≠ [] := List.ne_nil_of_mem h
  rw [← List.dropLast_append_getLast hne, List.mem_append,
    List.mem_singleton] at h
  refine h.imp_right ?_
  intro heq
  rw [List.getLast?_eq_some_getLast hne, heq]

theorem Mail.Conserved.not_queued {mail : Mail V} (h : mail.Conserved)
    {e : Envelope} (hmem : e ∈ mail.attempted) : e ∉ mail.queue := by
  intro hqueue
  have hnodup : mail.admitted.Nodup := List.Nodup.of_map _ h.distinct
  rw [h.order] at hnodup
  have hdisjoint := (List.nodup_append.mp hnodup).right.right
  exact hdisjoint e (List.mem_append_left _ hmem) e hqueue rfl

def Mail.Attempted (w : World V) (e : Envelope) : Prop :=
  w.mail.Settled e ∨
    (w.mail.attempted.getLast? = some e ∧
      (e ∈ w.mail.hand ∨ (Cut w ∧ e ∈ w.mail.rejected)))

theorem MailInv.attempted (h : MailInv w) {e : Envelope}
    (hmem : e ∈ w.mail.attempted) : Mail.Attempted w e := by
  cases mem_dropLast_or_getLast hmem with
  | inl hearlier => exact Or.inl (h.settled e hearlier)
  | inr hlast =>
      rcases h.last e hlast with hsettled | hhand | hcut
      · exact Or.inl hsettled
      · exact Or.inr ⟨hlast, Or.inl hhand⟩
      · rcases h.conserved.mem_admitted.mp
          (h.conserved.attempted_admitted hmem) with
          hqueue | hhand | hdispatched | hrejected
        · exact absurd hqueue (h.conserved.not_queued hmem)
        · exact Or.inr ⟨hlast, Or.inl hhand⟩
        · exact Or.inl (Or.inl hdispatched)
        · exact Or.inr ⟨hlast, Or.inr ⟨hcut, hrejected⟩⟩

theorem rejected_of_end (h : Reachable A c)
    (hend : c.state.control.mode.isExited = true ∨ isOver c = true)
    {e : Envelope} (hmem : e ∈ c.state.mail.admitted)
    (hdispatched : e ∉ c.state.mail.dispatched) :
    e ∈ c.state.mail.rejected := by
  have hinv : MailInv c.state := (delivery_safe h).inv
  have hempty : c.state.mail.queue = [] ∧ c.state.mail.hand = [] := by
    cases hend with
    | inl hexited => exact hinv.exited hexited
    | inr hover =>
        have hsquared := squared_of_isOver h hover
        exact ⟨hsquared.emptied.right, hsquared.hand⟩
  rcases hinv.conserved.mem_admitted.mp hmem with
    hqueue | hhand | hdispatched' | hrejected
  · rw [hempty.left] at hqueue
    cases hqueue
  · rw [hempty.right] at hhand
    cases hhand
  · exact absurd hdispatched' hdispatched
  · exact hrejected

/-- What a Drain has done when it comes to its graceful finish. -/
structure Drained (w : World V) : Prop where
  everything : w.mail.attempted = w.mail.admitted
  settled : forall e, e ∈ w.mail.admitted -> w.mail.Settled e

theorem drained_of_gracefulFinish (h : Reachable A c)
    (hpoint : point c = some (.gracefulFinish .drain))
    (hmode : c.state.control.mode = .draining) : Drained c.state := by
  have hsafe := delivery_safe h
  have hinv : MailInv c.state := hsafe.inv
  rcases c with ⟨w, prog⟩
  cases prog with
  | act op next =>
      cases op with
      | reach p =>
          cases hpoint
          rcases hsafe.demands hmode with
            ⟨hdiscarded, hqueue, _, hpunctual⟩
          have heverything : w.mail.attempted = w.mail.admitted := by
            rw [hinv.conserved.order, hdiscarded, hqueue]
            simp
          refine ⟨heverything, ?_⟩
          intro e hmem
          apply hpunctual e
          rwa [heverything]
      | _ => cases hpoint
  | _ => cases hpoint

/--
The envelopes taken for dispatch are a prefix of the admitted ones.  Each of
them was dispatched or abandoned, but the last one may be in the hand of the
actor task, or come too late.  From a Stop on nothing more is admitted or
dispatched, and the rest ends rejected.  From a Drain on nothing more is
admitted, and everything was attempted when it comes to its graceful finish.
-/
theorem dispatch_in_order_until_cutoff (A : ActorConfig) (c : ActorState V)
    (h : Reachable A c) :
    c.state.mail.attempted <+: c.state.mail.admitted ∧
    (forall e, e ∈ c.state.mail.attempted -> Mail.Attempted c.state e) ∧
    (c.state.control.mode = .stopping -> forall c',
      Machine.Reaches (machine V A) Machine.Anything c c' ->
        c'.state.mail.admitted = c.state.mail.admitted ∧
        c'.state.mail.dispatched = c.state.mail.dispatched ∧
        (c'.state.control.mode.isExited = true ∨ isOver c' = true ->
          forall e, e ∈ c.state.mail.admitted ->
            e ∉ c.state.mail.dispatched -> e ∈ c'.state.mail.rejected)) ∧
    (c.state.control.mode = .draining -> forall c',
      Machine.Reaches (machine V A) Machine.Anything c c' ->
        c'.state.mail.admitted = c.state.mail.admitted) ∧
    (point c = some (.gracefulFinish .drain) ->
      c.state.control.mode = .draining -> Drained c.state) := by
  have hinv : MailInv c.state := (delivery_safe h).inv
  refine ⟨?_, fun e => hinv.attempted, ?_, ?_, drained_of_gracefulFinish h⟩
  · rw [hinv.conserved.order, List.append_assoc]
    exact List.prefix_append ..
  · intro hstopping c' hrun
    have hgated := gated_run hrun
    have hclosing : Closing c.state := by
      intro hrunning
      rw [hstopping] at hrunning
      cases hrunning
    have hcut : Cut c.state := by
      refine ⟨hclosing, ?_⟩
      intro hdraining
      rw [hstopping] at hdraining
      cases hdraining
    have hadmitted := (hgated.closing hclosing).right
    have hdispatched := (hgated.cut hcut).right
    refine ⟨hadmitted, hdispatched, ?_⟩
    intro hend e hmem hnot
    rw [← hadmitted] at hmem
    rw [← hdispatched] at hnot
    exact rejected_of_end (h.trans hrun) hend hmem hnot
  · intro hdraining c' hrun
    apply ((gated_run hrun).closing _).right
    intro hrunning
    rw [hdraining] at hrunning
    cases hrunning

/-- Two calls are accepted, and a Stop commits as the first is dispatched. -/
def stoppedAtSecond : ActorState Unit :=
  (machine Unit sociable).stage .next 100
    [.env .reserve, .env (.admitEnvelope .call), .env .reserve,
      .env (.admitEnvelope .call), .actor (.spawn true), silent, ready, silent,
      .env (.request .stop)] 0 (initial Unit sociable)

/-- The reply of the first call is finished, and the actor stops. -/
def stoppedAfterFirst : ActorState Unit :=
  (machine Unit sociable).stage .next 100
    [silent, silent, silent, silent, ready, silent, silent, silent, ready,
      silent, silent] 100 stoppedAtSecond

/-- The second call is rejected. -/
theorem stoppedAfterFirst_in_order :
    stoppedAtSecond.state.mail.attempted = [⟨0, .call⟩] ∧
      isOver stoppedAfterFirst = true ∧
      stoppedAfterFirst.state.mail.dispatched = [⟨0, .call⟩] ∧
      ⟨1, .call⟩ ∈ stoppedAfterFirst.state.mail.rejected := by
  have hreach : Reachable sociable stoppedAtSecond :=
    Machine.stage_reaches (fun _ => trivial) (fun _ _ _ => trivial) _ _ _
  have hrun : Machine.Reaches (machine Unit sociable) Machine.Anything
      stoppedAtSecond stoppedAfterFirst :=
    Machine.stage_reaches (fun _ => trivial) (fun _ _ _ => trivial) _ _ _
  have hover : isOver stoppedAfterFirst = true := by decide +kernel
  have hdispatched : stoppedAtSecond.state.mail.dispatched = [⟨0, .call⟩] := by
    decide +kernel
  have hmem : ⟨1, .call⟩ ∈ stoppedAtSecond.state.mail.admitted := by
    decide +kernel
  rcases (dispatch_in_order_until_cutoff sociable stoppedAtSecond
      hreach).right.right.left (by decide +kernel) stoppedAfterFirst hrun with
    ⟨_, hsame, hrejected⟩
  rw [hdispatched] at hsame hrejected
  exact ⟨by decide +kernel, hover, hsame,
    hrejected (Or.inr hover) ⟨1, .call⟩ hmem (by decide)⟩

/-- A Stop commits after a call was taken and before its dispatch is decided. -/
def stoppedTaken : ActorState Unit :=
  (machine Unit sociable).stage .next 0 [.env (.request .stop)] 5 takenCall

/-- The call is a dispatch attempt, and it is neither dispatched nor abandoned. -/
theorem stoppedTaken_too_late :
    Reachable sociable stoppedTaken ∧
      exists e, e ∈ stoppedTaken.state.mail.attempted ∧
        e ∉ stoppedTaken.state.mail.dispatched ∧
        e.id ∉ stoppedTaken.state.mail.abandoned ∧
        e ∈ stoppedTaken.state.mail.rejected := by
  refine ⟨takenCall_reachable.trans ?_, { id := 0, kind := .call },
    by decide +kernel, by decide +kernel, by decide +kernel, by decide +kernel⟩
  exact Machine.stage_reaches (fun _ => trivial) (fun _ _ _ => trivial) _ _ _

end Loac

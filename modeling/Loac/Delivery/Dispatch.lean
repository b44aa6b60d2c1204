import Loac.Delivery.Schedule

/-!
# Envelopes

An envelope that leaves the queue is dispatched or rejected, and its caller is
owed a response in both cases.
-/

namespace Loac

open Interleave

variable {V α : Type} {A : ActorConfig} {w w' : World V}
  {hand : List Envelope} {envelope : Envelope}
  {P Q : World V -> Prop} {Y : World V -> Prop}

/-!
## Undecided envelopes
-/

theorem Mail.Conserved.undecided {mail : Mail V} (h : mail.Conserved)
    (hmem : envelope ∈ mail.queue ∨ envelope ∈ mail.hand) :
    envelope ∉ mail.dispatched ∧ envelope ∉ mail.rejected := by
  have hnodup := h.nodup
  rw [List.append_assoc, List.nodup_append] at hnodup
  have hother := fun e he => hnodup.right.right envelope
    (List.mem_append.mpr hmem) e he
  constructor
  · intro hdispatched
    exact hother envelope (List.mem_append_left _ hdispatched) rfl
  · intro hrejected
    exact hother envelope (List.mem_append_right _ hrejected) rfl

theorem Mail.Tells.decided {mail : Mail V} {committed : List Mode} {id : Nat}
    {response : Response V} (h : mail.Tells committed id response) :
    exists e, (e ∈ mail.dispatched ∨ e ∈ mail.rejected) ∧ e.id = id := by
  cases response with
  | error error =>
      cases error with
      | beforeDispatch reason =>
          rcases h with ⟨⟨e, hmem, hid, _⟩, _⟩
          exact ⟨e, Or.inr hmem, hid⟩
      | duringDispatch reason =>
          rcases h with ⟨⟨e, hmem, hid, _⟩, _⟩
          exact ⟨e, Or.inl hmem, hid⟩
      | closed => exact h.elim
      | responseLost => exact h.elim
  | ok value =>
      rcases h with ⟨e, hmem, hid, _⟩
      exact ⟨e, Or.inl hmem, hid⟩

theorem MailInv.undecided_unanswered (h : MailInv w)
    (hmem : envelope ∈ w.mail.queue ∨ envelope ∈ w.mail.hand) :
    ¬ w.mail.Answered envelope.id := by
  intro hanswered
  have hopen := h.conserved.undecided hmem
  have hadmitted : envelope ∈ w.mail.admitted :=
    h.conserved.mem_admitted.mpr (hmem.imp_right Or.inl)
  rcases List.mem_map.mp hanswered with ⟨⟨id, response⟩, htold, heq⟩
  rcases (h.told id response htold).decided with ⟨e, hdecided, hid⟩
  have hsame : e = envelope := by
    apply h.conserved.eq_of_id _ hadmitted (hid.trans heq)
    cases hdecided with
    | inl hdispatched => exact h.conserved.dispatched_admitted hdispatched
    | inr hrejected => exact h.conserved.rejected_admitted hrejected
  subst hsame
  exact hdecided.elim hopen.left hopen.right

def Envelope.rejection (envelope : Envelope) : Debt :=
  if envelope.kind.hasReceiver then .rejected envelope.id else .nobody

theorem Balanced.rejects (h : Balanced hand .nobody none w)
    {queue hand' : List Envelope} (discarded : List Envelope)
    (hinv : MailInv w)
    (hmem : envelope ∈ w.mail.queue ∨ envelope ∈ w.mail.hand)
    (howned : forall e, e ∈ w.mail.queue ∨ e ∈ hand ->
      e = envelope ∨ e ∈ queue ∨ e ∈ hand') :
    Balanced hand' envelope.rejection none
      { w with mail := { w.mail with
          queue := queue
          hand := hand'
          discarded := discarded
          rejected := envelope :: w.mail.rejected } } where
  mode := h.mode
  inHand := rfl
  owned := by
    intro e hadmitted hkind
    have hleft (hold : e ∈ w.mail.queue ∨ e ∈ hand) :
        e ∈ queue ∨ e ∈ hand' ∨
          (exists key, w.sched.holds key = some (.caller e.id)) ∨
          envelope.rejection.caller = some e.id := by
      rcases howned e hold with heq | hqueue | hhand
      · subst heq
        refine Or.inr (Or.inr (Or.inr ?_))
        unfold Envelope.rejection
        rw [if_pos hkind]
        rfl
      · exact Or.inl hqueue
      · exact Or.inr (Or.inl hhand)
    rcases h.owned e hadmitted hkind with
      hanswered | hqueue | hhand | hkey | hdebt
    · exact Or.inl hanswered
    · exact Or.inr (hleft (Or.inl hqueue))
    · exact Or.inr (hleft (Or.inr hhand))
    · exact Or.inr (Or.inr (Or.inr (Or.inl hkey)))
    · cases hdebt
  held := by
    intro key reply hkey
    have hbacked := h.held key reply hkey
    cases reply with
    | caller id => exact hbacked
    | oneWay id => exact hbacked
  distinct := h.distinct
  owed := by
    unfold Envelope.rejection
    cases hkind : envelope.kind.hasReceiver with
    | true =>
        exact ⟨⟨envelope, List.mem_cons_self .., rfl, hkind⟩,
          hinv.undecided_unanswered hmem⟩
    | false => trivial
  delivered := h.delivered

theorem Balanced.rejectHand (h : Balanced [envelope] .nobody none w)
    (hinv : MailInv w) :
    Balanced [] envelope.rejection none
      { w with mail := w.mail.reject envelope } := by
  have hmem : envelope ∈ w.mail.hand := by
    rw [h.inHand]
    exact List.mem_cons_self ..
  have hempty : w.mail.hand.erase envelope = [] := by
    rw [h.inHand]
    exact List.erase_cons_head ..
  unfold Mail.reject
  rw [if_pos hmem, hempty]
  apply h.rejects w.mail.discarded hinv (Or.inr hmem)
  intro e hold
  cases hold with
  | inl hqueue => exact Or.inr (Or.inl hqueue)
  | inr hhand => exact Or.inl (List.mem_singleton.mp hhand)

theorem Backed.dispatch {mail : Mail V} {reply : DispatchReply}
    (h : Backed mail reply) (hand : List Envelope) (envelope : Envelope) :
    Backed { mail with
      hand := hand
      dispatched := envelope :: mail.dispatched } reply := by
  cases reply with
  | caller id =>
      rcases h with ⟨⟨e, hmem, hid, hkind⟩, hopen⟩
      exact ⟨⟨e, List.mem_cons_of_mem _ hmem, hid, hkind⟩, hopen⟩
  | oneWay id =>
      rcases h with ⟨e, hmem, hid, hkind⟩
      exact ⟨e, List.mem_cons_of_mem _ hmem, hid, hkind⟩

theorem StreamToEnvelope.reply_caller (hkind : envelope.kind.hasReceiver = true) :
    StreamToEnvelope.reply envelope = .caller envelope.id :=
  if_pos hkind

theorem StreamToEnvelope.reply_oneWay
    (hkind : envelope.kind.hasReceiver = false) :
    StreamToEnvelope.reply envelope = .oneWay envelope.id := by
  unfold StreamToEnvelope.reply
  rw [hkind]
  rfl

theorem Balanced.dispatchHand (h : Balanced [envelope] .nobody none w)
    (hinv : MailInv w) :
    Balanced [] (.dispatched (StreamToEnvelope.reply envelope)) none
      { w with mail := { w.mail with
          hand := w.mail.hand.erase envelope
          dispatched := envelope :: w.mail.dispatched } } where
  mode := h.mode
  inHand := by
    show w.mail.hand.erase envelope = []
    rw [h.inHand]
    exact List.erase_cons_head ..
  owned := by
    intro e hadmitted hkind
    rcases h.owned e hadmitted hkind with
      hanswered | hqueue | hhand | hkey | hdebt
    · exact Or.inl hanswered
    · exact Or.inr (Or.inl hqueue)
    · refine Or.inr (Or.inr (Or.inr (Or.inr ?_)))
      have heq := List.mem_singleton.mp hhand
      subst heq
      rw [StreamToEnvelope.reply_caller hkind]
      rfl
    · exact Or.inr (Or.inr (Or.inr (Or.inl hkey)))
    · cases hdebt
  held := fun key reply hkey => (h.held key reply hkey).dispatch _ envelope
  distinct := h.distinct
  owed := by
    have hmem : envelope ∈ w.mail.queue ∨ envelope ∈ w.mail.hand := by
      rw [h.inHand]
      exact Or.inr (List.mem_cons_self ..)
    have hadmitted : envelope ∈ w.mail.admitted :=
      hinv.conserved.mem_admitted.mpr (hmem.imp_right Or.inl)
    have hopen := hinv.conserved.undecided hmem
    have hnew : forall e, e ∈ w.mail.dispatched -> e.id ≠ envelope.id := by
      intro e hold hid
      have heq := hinv.conserved.eq_of_id
        (hinv.conserved.dispatched_admitted hold) hadmitted hid
      rw [heq] at hold
      exact hopen.left hold
    cases hkind : envelope.kind.hasReceiver with
    | false =>
        rw [StreamToEnvelope.reply_oneWay hkind]
        refine ⟨⟨envelope, List.mem_cons_self .., rfl, hkind⟩, ?_⟩
        intro key id heq
        cases heq
    | true =>
        rw [StreamToEnvelope.reply_caller hkind]
        refine ⟨⟨⟨envelope, List.mem_cons_self .., rfl, hkind⟩,
          hinv.undecided_unanswered hmem, ?_⟩, ?_⟩
        · intro hdone
          rcases hinv.completed _ hdone with ⟨e, hold, hid⟩
          exact hnew e hold hid
        · intro key id heq hkey
          cases heq
          rcases (h.held key _ hkey).left with ⟨e, hold, hid, _⟩
          exact hnew e hold hid
  delivered := h.delivered

/-!
## Rejections
-/

def Excused (envelope : Envelope) (w : World V) : Prop :=
  envelope.id ∈ w.mail.abandoned ∨ Cut w

def Excuse (envelope : Envelope) (reason : ExitReason) (w : World V) : Prop :=
  envelope.id ∈ w.mail.abandoned ∨ Blames w.control.committed reason

theorem abandoned_enduring (id : Nat) :
    Enduring A (fun w : World V => id ∈ w.mail.abandoned) :=
  Enduring.seen (P := fun mail => id ∈ mail.abandoned)
    fun hgrows hmem => hgrows.abandoned id hmem

theorem excuse_enduring (envelope : Envelope) (reason : ExitReason) :
    Enduring A (Excuse (V := V) envelope reason) where
  env := fun e w w' hinv henv hw =>
    hw.imp ((abandoned_enduring _).env e w w' hinv henv)
      ((blames_enduring reason).env e w w' hinv henv)
  op := fun op input w w' a hplaces hinv hexec hw =>
    hw.imp ((abandoned_enduring _).op op input w w' a hplaces hinv hexec)
      ((blames_enduring reason).op op input w w' a hplaces hinv hexec)

theorem excused_enduring (envelope : Envelope) :
    Enduring A (Excused (V := V) envelope) where
  env := fun e w w' hinv henv hw =>
    hw.imp ((abandoned_enduring _).env e w w' hinv henv)
      (cut_enduring.env e w w' hinv henv)
  op := fun op input w w' a hplaces hinv hexec hw =>
    hw.imp ((abandoned_enduring _).op op input w w' a hplaces hinv hexec)
      (cut_enduring.op op input w w' a hplaces hinv hexec)

theorem queuedFailure_excuse (hP : Lasting A P) {debt : Debt}
    (hexcused : forall w, P w -> Excused envelope w)
    (hw : Book hand debt none P w) :
    wp (deliveryDiscipline V A) queuedFailure
      (fun error w => exists reason, error = .beforeDispatch reason ∧
        Book hand debt none (fun w => P w ∧ Excuse envelope reason w) w)
      Y w := by
  apply wp.seq (hP.mode hw)
  intro mode w hw
  rcases hw with ⟨hw, hmode, hmem, hopen⟩
  cases hexcused w hw.right with
  | inl habandoned =>
      rcases queuedFailure_before mode with ⟨reason, herror⟩
      exact wp.pure ⟨reason, herror, hw.left, hw.right, Or.inl habandoned⟩
  | inr hcut =>
      unfold Cut at hcut
      rw [← hmode] at hcut
      rcases queuedFailure_blames hcut hmem hopen with ⟨reason, herror, hblames⟩
      exact wp.pure ⟨reason, herror, hw.left, hw.right, Or.inr hblames⟩

theorem notifyRejected_pays (hP : Lasting A P) {reason : ExitReason}
    (hexcuse : forall w, P w -> Excuse envelope reason w)
    (hw : Book hand envelope.rejection none P w) :
    wp (deliveryDiscipline V A)
      (Prog.onlyIf envelope.kind.hasReceiver
        (notifyResponse envelope.id (.error (.beforeDispatch reason))))
      (fun _ => Book hand .nobody none P) Y w := by
  unfold Envelope.rejection at hw
  cases hkind : envelope.kind.hasReceiver with
  | false =>
      rw [hkind] at hw
      exact hw
  | true =>
      rw [hkind] at hw
      have hbook : Book hand (.rejected envelope.id) none P w := hw
      apply notifyResponse_pays hP rfl _ _ hbook
      · exact fun w _ hw => ⟨hw.left.owed.left, hexcuse w hw.right⟩
      · exact fun _ _ _ _ heq => by cases heq

theorem rejectCall_pays (hP : Lasting A P) {reason : ExitReason}
    (hkind : envelope.kind.hasReceiver = true)
    (hexcuse : forall w, P w -> Excuse envelope reason w)
    (hw : Book hand envelope.rejection none P w) :
    wp (deliveryDiscipline V A)
      (CallEnvelope.reject envelope (.beforeDispatch reason))
      (fun _ => Book hand .nobody none P) Y w := by
  have hnotified := notifyRejected_pays hP (Y := Y) hexcuse hw
  rw [hkind] at hnotified
  apply wp.seq hnotified
  intro _ w hw
  exact hP.dropCalled .message rfl w hw

theorem rejectStreamTo_pays (hP : Lasting A P) {reason : ExitReason}
    (hexcuse : forall w, P w -> Excuse envelope reason w)
    (hw : Book hand envelope.rejection none P w) :
    wp (deliveryDiscipline V A)
      (StreamToEnvelope.reject envelope (.beforeDispatch reason))
      (fun _ => Book hand .nobody none P) Y w := by
  apply wp.seq (notifyRejected_pays hP hexcuse hw)
  intro _ w hw
  apply wp.seq (hP.dropCalled .message rfl w hw)
  intro _ w hw
  exact hP.dropCalled .writer rfl w hw

theorem discardCall_pays (hP : Lasting A P)
    (hkind : envelope.kind.hasReceiver = true)
    (hexcused : forall w, P w -> Excused envelope w)
    (hw : Book hand envelope.rejection none P w) :
    wp (deliveryDiscipline V A) (CallEnvelope.discard envelope)
      (fun _ => Book hand .nobody none P) Y w := by
  apply wp.seq (queuedFailure_excuse hP hexcused hw)
  intro error w hw
  rcases hw with ⟨reason, herror, hw⟩
  subst herror
  apply wp.mono _ (fun _ hY => hY) (rejectCall_pays
    (hP.and (excuse_enduring envelope reason).lasting) hkind
    (fun _ hw => hw.right) hw)
  intro _ w hw
  exact ⟨hw.left, hw.right.left⟩

theorem discardStreamTo_pays (hP : Lasting A P)
    (hexcused : forall w, P w -> Excused envelope w)
    (hw : Book hand envelope.rejection none P w) :
    wp (deliveryDiscipline V A) (StreamToEnvelope.discard envelope)
      (fun _ => Book hand .nobody none P) Y w := by
  apply wp.seq (queuedFailure_excuse hP hexcused hw)
  intro error w hw
  rcases hw with ⟨reason, herror, hw⟩
  subst herror
  apply wp.mono _ (fun _ hY => hY) (rejectStreamTo_pays
    (hP.and (excuse_enduring envelope reason).lasting)
    (fun _ hw => hw.right) hw)
  intro _ w hw
  exact ⟨hw.left, hw.right.left⟩

theorem discard_pays (hP : Lasting A P)
    (hexcused : forall w, P w -> Excused envelope w)
    (hw : Book hand envelope.rejection none P w) :
    wp (deliveryDiscipline V A) envelope.discard
      (fun _ => Book hand .nobody none P) Y w := by
  unfold Envelope.discard
  cases hkind : envelope.kind with
  | call =>
      exact discardCall_pays hP (congrArg Kind.hasReceiver hkind) hexcused hw
  | stream =>
      exact discardCall_pays hP (congrArg Kind.hasReceiver hkind) hexcused hw
  | send =>
      have hnobody : envelope.rejection = .nobody := by
        unfold Envelope.rejection
        rw [hkind]
        rfl
      rw [hnobody] at hw
      exact hP.dropCalled .message rfl w hw
  | callTo => exact discardStreamTo_pays hP hexcused hw
  | sendTo => exact discardStreamTo_pays hP hexcused hw

/-!
## The inbox
-/

/-- What is left in the queue may be discarded, and something more is known. -/
abbrev Ending (Q : World V -> Prop) (w : World V) : Prop :=
  Discardable w ∧ Q w

theorem ending_enduring (hQ : Enduring A Q) : Enduring A (Ending Q) :=
  discardable_enduring.and hQ

theorem tryRecv_rejected (hQ : Enduring A Q) (hw : Clean (Ending Q) w) :
    wp (deliveryDiscipline V A) (mail .tryRecv)
      (fun envelope w =>
        match envelope with
        | none => Clean (fun w => Emptied w ∧ Q w) w
        | some e => Book [] e.rejection none
            (fun w => Ending Q w ∧ Excused e w) w)
      Y w := by
  have hending := ending_enduring hQ
  apply wp.op hending.lasting.book hw
  intro w hinv hw
  refine ⟨trivial, ?_⟩
  intro input w' taken _ hexec _
  have hlast := hending.op (.mail .tryRecv) input w w' taken rfl hinv hexec
    hw.right
  cases hexec
  simp only [MailOp.exec] at hlast ⊢
  unfold Mail.tryRecv at hlast ⊢
  cases hqueue : w.mail.queue with
  | nil =>
      rw [hqueue] at hlast
      exact ⟨hw.left.elsewhere _ _, ⟨hlast.left.left, hqueue⟩, hlast.right⟩
  | cons e rest =>
      rw [hqueue] at hlast
      simp only at hlast ⊢
      have hcut : Cut w := by
        cases hw.right.left.right with
        | inl hcut => exact hcut
        | inr hempty =>
            rw [hqueue] at hempty
            cases hempty
      have hmem : e ∈ w.mail.queue := by
        rw [hqueue]
        exact List.mem_cons_self ..
      refine ⟨?_, hlast, Or.inr hcut⟩
      have hinHand := hw.left.inHand
      have howned : forall e', e' ∈ w.mail.queue ∨ e' ∈ [] ->
          e' = e ∨ e' ∈ rest ∨ e' ∈ [] := by
        intro e' hold
        rw [hqueue, List.mem_cons, or_assoc] at hold
        exact hold
      have hrejected : Balanced [] e.rejection none _ :=
        hw.left.rejects (w.mail.discarded ++ [e]) hinv
          (Or.inl hmem) howned
      rw [← hinHand] at hrejected
      rw [← hinHand]
      exact hrejected.elsewhere _ _

theorem tryDiscard_pays (hQ : Enduring A Q) (hw : Clean (Ending Q) w) :
    wp (deliveryDiscipline V A) ActorInbox.tryDiscard
      (fun discarded w =>
        Clean (Ending Q) w ∧ (discarded = false -> Emptied w)) Y w := by
  apply wp.seq (tryRecv_rejected hQ hw)
  intro taken w hw
  cases taken with
  | none =>
      refine wp.pure ⟨⟨hw.left, hw.right.left.discardable, hw.right.right⟩, ?_⟩
      exact fun _ => hw.right.left
  | some e =>
      have hlasting := (ending_enduring hQ).lasting.and
        (excused_enduring (A := A) e).lasting
      apply wp.seq (discard_pays hlasting (fun _ hw => hw.right) hw)
      intro _ w hw
      exact wp.pure ⟨⟨hw.left, hw.right.left⟩, fun h => by cases h⟩

theorem closeInbox_pays (hP : Lasting A P)
    (hclosing : forall w, P w -> Closing w) :
    Keeps (deliveryDiscipline V A) (Book hand .nobody none P) Y
      ActorInbox.close := by
  intro w hw
  apply wp.op hP.book hw
  intro w hinv hw
  refine ⟨hclosing w hw.right, ?_⟩
  intro input w' _ _ hexec _
  have hexec' : (Op.mail .close).exec A input w = some (w', ()) := hexec
  exact ⟨hw.left.op_step rfl hexec',
    hP.op (.mail .close) input w w' () rfl hinv hexec' hw.right⟩

theorem dropInbox_pays (hQ : Enduring A Q) (hw : Clean (Ending Q) w) :
    wp (deliveryDiscipline V A) ActorInbox.drop
      (fun _ => Clean (fun w => Emptied w ∧ Q w)) Y w := by
  apply wp.seq (closeInbox_pays (ending_enduring hQ).lasting
    (fun _ hw => hw.left.left) w hw)
  intro _ w hw
  apply wp.iter (fun _ => Clean (Ending Q)) hw
  intro _ w hw
  apply wp.seq (tryDiscard_pays hQ hw)
  intro discarded w hw
  cases discarded with
  | true => exact wp.again hw.left
  | false =>
      exact wp.done ⟨hw.left.left, hw.right rfl, hw.left.right.right⟩

/-!
## Scheduling
-/

/-- Dispatch is in time, and something more is known. -/
abbrev Served (Q : World V -> Prop) (w : World V) : Prop :=
  Serving w ∧ Q w

theorem served_lasting (hQ : Enduring A Q) : Lasting A (Served Q) :=
  serving_lasting.and hQ.lasting

theorem Sched.place_holds {sched : Sched} {key : Key} (future : ReplyFuture)
    (hkey : key < sched.items.next) (hfree : sched.items.get? key = none) :
    ((SchedOp.place key future).exec sched).1.holds key =
        ScheduledFuture.reply { future := future, returned := false } ∧
      forall other, other ≠ key ->
        ((SchedOp.place key future).exec sched).1.holds other =
          sched.holds other := by
  constructor
  · show ((sched.items.place key _).get? key).bind ScheduledFuture.reply = _
    rw [Slots.get?_place_of_free hkey hfree, if_pos rfl]
    rfl
  · intro other hne
    show ((sched.items.place key _).get? other).bind ScheduledFuture.reply = _
    rw [Slots.get?_place_of_free hkey hfree, if_neg hne]
    rfl

theorem placeReply_pays (hQ : Detached A Q) {key : Key} {future : ReplyFuture}
    (hw : Book hand
      (owes (ScheduledFuture.reply { future := future, returned := false })) none
      (fun w => Served Q w ∧ Reserved key w) w) :
    wp (deliveryDiscipline V A) (sched (.place key future))
      (fun _ => Book hand .nobody none (Served Q)) Y w := by
  have hlasting := (served_lasting hQ.toEnduring).and
    (reserved_lasting (A := A) key)
  apply wp.op hlasting.book hw
  intro w _ hw
  refine ⟨trivial, ?_⟩
  intro input w' _ _ hexec _
  rcases hw with ⟨hbook, ⟨hserving, hQw⟩, hkey, hfree⟩
  rcases Sched.place_holds future hkey hfree with ⟨hplaced, hothers⟩
  have hnone : w.sched.holds key = none := by
    unfold Sched.holds
    rw [hfree]
    rfl
  cases hexec
  exact ⟨hbook.places hnone hplaced hothers, hserving, hQ.sched w _ hQw⟩

theorem schedule_pays (hQ : Detached A Q) {debt : Debt}
    {build : Key -> Loac.P V ReplyFuture}
    (hbuild : forall key w,
      Book [] debt none (fun w => Served Q w ∧ Reserved key w) w ->
        wp (deliveryDiscipline V A) (build key)
          (fun future => Book []
            (owes (ScheduledFuture.reply
              { future := future, returned := false })) none
            (fun w => Served Q w ∧ Reserved key w))
          (Clean (Served Q)) w)
    (hw : Book [] debt none (Served Q) w) :
    wp (deliveryDiscipline V A) (Queue.schedule build)
      (fun _ => Clean (Served Q)) (Clean (Served Q)) w := by
  have hserved := served_lasting hQ.toEnduring
  apply wp.seq (R := fun key =>
    Book [] debt none (fun w => Served Q w ∧ Reserved key w))
  · apply wp.op hserved.book hw
    intro w hinv hw
    refine ⟨trivial, ?_⟩
    intro input w' key _ hexec _
    have hexec' : (Op.sched .reserve).exec A input w = some (w', key) := hexec
    refine ⟨hw.left.op_step rfl hexec',
      hserved.op (.sched .reserve) input w w' key rfl hinv hexec' hw.right, ?_⟩
    have hfree : w.sched.items.get? w.sched.items.next = none :=
      Slots.get?_of_next_le (Nat.le_refl _)
    cases hexec
    exact ⟨Nat.lt_succ_self _, hfree⟩
  · intro key w hw
    apply wp.seq (hbuild key w hw)
    intro future w hw
    apply wp.seq ((hserved.and (reserved_lasting key)).sched (.markReady key)
      rfl w hw)
    intro _ w hw
    exact placeReply_pays hQ hw

theorem scheduleReply_pays (hQ : Detached A Q) {reply : DispatchReply}
    (hw : Book [] (.dispatched reply) none (Served Q) w) :
    wp (deliveryDiscipline V A) (scheduleReply reply)
      (fun _ => Clean (Served Q)) (Clean (Served Q)) w := by
  have hserved := served_lasting hQ.toEnduring
  apply schedule_pays hQ _ hw
  intro key w hw
  have hlasting := hserved.and (reserved_lasting (A := A) key)
  apply wp.bind
  apply wp.attempt
  apply wp.mono _ _ (hlasting.callUser (.construct key) rfl w hw)
  · intro _ w hw
    exact hw
  · intro w hw
    apply wp.bind
    apply wp.mono _ (fun _ hX => hX) (drop_pays hlasting hw rfl)
    intro _ w hw
    exact wp.throw ⟨hw.left, hw.right.left⟩

theorem dispatchStream_pays (hQ : Detached A Q) {reply : DispatchReply}
    (hearned : w.mail.Earned reply none)
    (hw : Book [] (.dispatched reply) none (Served Q) w) :
    wp (deliveryDiscipline V A) (StreamKind.dispatch reply)
      (fun _ => Clean (Served Q)) (Clean (Served Q)) w := by
  have hserved := served_lasting hQ.toEnduring
  have hdue : reply.due (none : Option V) = none := by
    cases reply <;> rfl
  apply wp.seq (R := fun _ => Clean (Served Q))
  · have hbook : Book [] (.dispatched reply) (reply.due (none : Option V))
        (fun w => Served Q w ∧ w.mail.Earned reply none) w := by
      rw [hdue]
      exact ⟨hw.left, hw.right, hearned⟩
    have hcompleted := complete_pays
      (hserved.and (earned_enduring reply none).lasting)
      (Y := Clean (Served Q)) (fun _ hw => hw.right) hbook
    exact wp.mono (fun _ _ hw => ⟨hw.left, hw.right.left⟩)
      (fun _ hX => hX) hcompleted
  · intro _ w hw
    apply schedule_pays hQ _ hw
    intro key w hw
    have hlasting := hserved.and (reserved_lasting (A := A) key)
    have hconstruct := hlasting.callClean (.construct key) rfl w hw
    apply wp.bind
    apply wp.mono _ _ hconstruct
    · intro _ w hw
      exact wp.pure hw
    · intro w hw
      exact ⟨hw.left, hw.right.left⟩

/-!
## Dispatch
-/

/-- An envelope is in hand, and all before it were decided in time. -/
abbrev Holding (envelope : Envelope) (Q : World V -> Prop) (w : World V) :
    Prop :=
  Book [envelope] .nobody none (fun w => ServingBut envelope w ∧ Q w) w

theorem holding_lasting (hQ : Enduring A Q) (envelope : Envelope) :
    Lasting A (fun w => ServingBut envelope w ∧ Q w) :=
  (servingBut_lasting envelope).and hQ.lasting

/-- An envelope that is decided in time leaves nothing undecided. -/
theorem ServingBut.serving (h : ServingBut envelope w)
    (hsettled : w.mail.Settled envelope ∨ Cut w) : Serving w := by
  refine ⟨h.left, hsettled.imp_left ?_⟩
  intro hsettled e hmem
  by_cases heq : e = envelope
  · rw [heq]
    exact hsettled
  · exact h.right e hmem heq

theorem Balanced.reject_rejected (h : Balanced [envelope] .nobody none w) :
    envelope ∈ (w.mail.reject envelope).rejected := by
  have hmem : envelope ∈ w.mail.hand := by
    rw [h.inHand]
    exact List.mem_cons_self ..
  unfold Mail.reject
  rw [if_pos hmem]
  exact List.mem_cons_self ..

theorem replyIsClosed_decides (hQ : Enduring A Q)
    (hkind : envelope.kind.hasReceiver = true) (hw : Holding envelope Q w) :
    wp (deliveryDiscipline V A) (mail (.replyIsClosed envelope))
      (fun closed w =>
        match closed with
        | true => Book [] envelope.rejection none
            (fun w => Served Q w ∧ Excused envelope w) w
        | false => Holding envelope Q w)
      Y w := by
  have hlasting := holding_lasting hQ envelope
  apply wp.op hlasting.book hw
  intro w hinv hw
  refine ⟨hkind, ?_⟩
  intro input w' closed _ hexec _
  have hlast := hlasting.op (.mail (.replyIsClosed envelope)) input w w' closed
    rfl hinv hexec hw.right
  have hpair : some ({ w with mail := (w.mail.replyIsClosed envelope).1 },
      (w.mail.replyIsClosed envelope).2) = some (w', closed) := hexec
  unfold Mail.replyIsClosed at hpair
  by_cases hmem : envelope.id ∈ w.mail.abandoned
  · rw [if_pos hmem] at hpair
    cases hpair
    have hgrows := w.mail.reject_grows envelope
    have habandoned := hgrows.abandoned _ hmem
    refine ⟨hw.left.rejectHand hinv, ⟨?_, hlast.right⟩, Or.inl habandoned⟩
    exact hlast.left.serving (Or.inl (Or.inr
      ⟨hw.left.reject_rejected, hkind, habandoned⟩))
  · rw [if_neg hmem] at hpair
    cases hpair
    exact hw

theorem beginDispatch_decides (hQ : Enduring A Q) (hw : Holding envelope Q w) :
    wp (deliveryDiscipline V A) (mail (.beginDispatch envelope))
      (fun result w =>
        match result with
        | .ok _ => Book [] (.dispatched (StreamToEnvelope.reply envelope)) none
            (Served Q) w ∧ envelope ∈ w.mail.dispatched
        | .error error => exists reason, error = .beforeDispatch reason ∧
            Book [] envelope.rejection none
              (fun w => Served Q w ∧ Excuse envelope reason w) w)
      Y w := by
  have hlasting := holding_lasting hQ envelope
  apply wp.op hlasting.book hw
  intro w hinv hw
  refine ⟨trivial, ?_⟩
  intro input w' result _ hexec _
  have hlast := hlasting.op (.mail (.beginDispatch envelope)) input w w' result
    rfl hinv hexec hw.right
  have hpair : some ({ w with
        mail := (w.mail.beginDispatch w.control.mode envelope).1 },
      (w.mail.beginDispatch w.control.mode envelope).2) =
      some (w', result) := hexec
  unfold Mail.beginDispatch at hpair
  cases hresult : (Loac.beginDispatch w.control.mode).2 with
  | ok _ =>
      have hmem : envelope ∈ w.mail.hand := by
        rw [hw.left.inHand]
        exact List.mem_cons_self ..
      rw [hresult] at hpair
      simp only [if_pos hmem] at hpair
      cases hpair
      have hdispatched : envelope ∈ envelope :: w.mail.dispatched :=
        List.mem_cons_self ..
      refine ⟨⟨hw.left.dispatchHand hinv, ?_, hlast.right⟩, hdispatched⟩
      exact hlast.left.serving (Or.inl (Or.inl hdispatched))
  | error error =>
      rw [hresult] at hpair
      cases hpair
      rcases beginDispatch_error hresult with ⟨hcut, herror⟩
      rcases queuedFailure_blames hcut hinv.history.recorded hw.left.mode with
        ⟨reason, hreason, hblames⟩
      refine ⟨reason, herror.trans hreason, hw.left.rejectHand hinv, ⟨?_,
        hlast.right⟩, Or.inr hblames⟩
      exact hlast.left.serving (Or.inr hcut)

theorem dispatchCall_pays (hQ : Detached A Q)
    {kind : DispatchReply -> Loac.P V Unit}
    (hreceiver : envelope.kind.hasReceiver = true)
    (hkind : forall w, Book [] (.dispatched (.caller envelope.id)) none
      (Served Q) w -> envelope ∈ w.mail.dispatched ->
        wp (deliveryDiscipline V A) (kind (.caller envelope.id))
          (fun _ => Clean (Served Q)) (Clean (Served Q)) w)
    (hw : Holding envelope Q w) :
    wp (deliveryDiscipline V A) (CallEnvelope.dispatch kind envelope)
      (fun _ => Clean (Served Q)) (Clean (Served Q)) w := by
  have hserved := served_lasting hQ.toEnduring
  apply wp.seq (replyIsClosed_decides hQ.toEnduring hreceiver hw)
  intro closed w hw
  cases closed with
  | true =>
      have hlasting := hserved.and (excused_enduring (A := A) envelope).lasting
      apply wp.mono _ (fun _ hX => hX) (discardCall_pays hlasting hreceiver
        (fun _ hw => hw.right) hw)
      intro _ w hw
      exact ⟨hw.left, hw.right.left⟩
  | false =>
      apply wp.seq (beginDispatch_decides hQ.toEnduring hw)
      intro result w hw
      cases result with
      | ok _ =>
          rw [StreamToEnvelope.reply_caller hreceiver] at hw
          exact hkind w hw.left hw.right
      | error error =>
          rcases hw with ⟨reason, herror, hw⟩
          subst herror
          apply wp.mono _ (fun _ hX => hX) (rejectCall_pays
            (hserved.and (excuse_enduring envelope reason).lasting) hreceiver
            (fun _ hw => hw.right) hw)
          intro _ w hw
          exact ⟨hw.left, hw.right.left⟩

theorem dispatchSend_pays (hQ : Detached A Q)
    (hreceiver : envelope.kind.hasReceiver = false)
    (hw : Holding envelope Q w) :
    wp (deliveryDiscipline V A) (SendEnvelope.dispatch envelope)
      (fun _ => Clean (Served Q)) (Clean (Served Q)) w := by
  have hserved := served_lasting hQ.toEnduring
  apply wp.seq (beginDispatch_decides hQ.toEnduring hw)
  intro result w hw
  cases result with
  | ok _ =>
      rw [StreamToEnvelope.reply_oneWay hreceiver] at hw
      exact scheduleReply_pays hQ hw.left
  | error error =>
      rcases hw with ⟨reason, _, hw⟩
      have hnobody : envelope.rejection = .nobody := by
        unfold Envelope.rejection
        rw [hreceiver]
        rfl
      rw [hnobody] at hw
      exact hserved.dropCalled .message rfl w ⟨hw.left, hw.right.left⟩

theorem dispatchStreamTo_pays (hQ : Detached A Q) (hw : Holding envelope Q w) :
    wp (deliveryDiscipline V A) (StreamToEnvelope.dispatch envelope)
      (fun _ => Clean (Served Q)) (Clean (Served Q)) w := by
  have hserved := served_lasting hQ.toEnduring
  have hclosed : wp (deliveryDiscipline V A)
      (StreamToEnvelope.isClosed envelope)
      (fun closed w =>
        match closed with
        | true => Book [] envelope.rejection none
            (fun w => Served Q w ∧ Excused envelope w) w
        | false => Holding envelope Q w)
      (Clean (Served Q)) w := by
    unfold StreamToEnvelope.isClosed
    cases hreceiver : envelope.kind.hasReceiver with
    | true => exact replyIsClosed_decides hQ.toEnduring hreceiver hw
    | false => exact wp.pure hw
  apply wp.seq hclosed
  intro closed w hw
  cases closed with
  | true =>
      have hlasting := hserved.and (excused_enduring (A := A) envelope).lasting
      apply wp.mono _ (fun _ hX => hX) (discardStreamTo_pays hlasting
        (fun _ hw => hw.right) hw)
      intro _ w hw
      exact ⟨hw.left, hw.right.left⟩
  | false =>
      apply wp.seq (beginDispatch_decides hQ.toEnduring hw)
      intro result w hw
      cases result with
      | ok _ => exact scheduleReply_pays hQ hw.left
      | error error =>
          rcases hw with ⟨reason, herror, hw⟩
          subst herror
          apply wp.mono _ (fun _ hX => hX) (rejectStreamTo_pays
            (hserved.and (excuse_enduring envelope reason).lasting)
            (fun _ hw => hw.right) hw)
          intro _ w hw
          exact ⟨hw.left, hw.right.left⟩

theorem dispatch_pays (hQ : Detached A Q) (hw : Holding envelope Q w) :
    wp (deliveryDiscipline V A) envelope.dispatch
      (fun _ => Clean (Served Q)) (Clean (Served Q)) w := by
  unfold Envelope.dispatch
  cases hkind : envelope.kind with
  | call =>
      exact dispatchCall_pays hQ (congrArg Kind.hasReceiver hkind)
        (fun _ hw _ => scheduleReply_pays hQ hw) hw
  | stream =>
      exact dispatchCall_pays hQ (congrArg Kind.hasReceiver hkind)
        (fun _ hw hmem => dispatchStream_pays hQ
          ⟨envelope, hmem, rfl, hkind⟩ hw) hw
  | send =>
      exact dispatchSend_pays hQ (congrArg Kind.hasReceiver hkind) hw
  | callTo => exact dispatchStreamTo_pays hQ hw
  | sendTo => exact dispatchStreamTo_pays hQ hw

end Loac

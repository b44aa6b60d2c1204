import Loac.Capacity.Limit
import Loac.Delivery.Books
import Loac.Interleave.Solo

/-!
# What a dispatch comes to

An envelope that was taken out is rejected, and then no reply is scheduled, or
its dispatch is committed, and then exactly one reply is, unless the
construction of its handler panics.
-/

namespace Loac

open Interleave Interleave.Prog

variable {V α : Type} {A : ActorConfig} {w₀ w w' : World V}
  {envelope : Envelope}

structure RejectedBy (envelope : Envelope) (w w' : World V) : Prop where
  rejected : w'.mail.rejected = envelope :: w.mail.rejected
  dispatched : w'.mail.dispatched = w.mail.dispatched
  items : w'.sched.items = w.sched.items

structure ScheduledBy (envelope : Envelope) (w w' : World V) : Prop where
  dispatched : w'.mail.dispatched = envelope :: w.mail.dispatched
  rejected : w'.mail.rejected = w.mail.rejected
  items : exists future, w'.sched.items =
    w.sched.items.reserve.place w.sched.items.next
      { future := future, returned := false }
  keys : w'.sched.items.keys = w.sched.items.next :: w.sched.items.keys

structure PanickedBy (envelope : Envelope) (w w' : World V) : Prop where
  dispatched : w'.mail.dispatched = envelope :: w.mail.dispatched
  rejected : w'.mail.rejected = w.mail.rejected
  items : w'.sched.items = w.sched.items.reserve
  panicked : w.life.panics.count (.construct w.sched.items.next) <
    w'.life.panics.count (.construct w.sched.items.next)

structure Standing (w₀ : World V) (hand dispatched rejected : List Envelope)
    (items : Slots ScheduledFuture) (w : World V) : Prop where
  hand : w.mail.hand = hand
  dispatched : w.mail.dispatched = dispatched
  rejected : w.mail.rejected = rejected
  items : w.sched.items = items
  panics : w₀.life.panics <:+ w.life.panics

variable {hand dispatched rejected : List Envelope}
  {items : Slots ScheduledFuture}

abbrev alone (V : Type) (A : ActorConfig) (β : Type) :
    Discipline ((machine V A).solo β) :=
  Discipline.free _

theorem solo_exec {β : Type} {op : Op V α} {input : Input V} {a : α}
    (h : ((machine V A).solo β).exec op input w = some (w', a)) :
    op.exec A input w = some (w', a) := h

theorem solo_env {β : Type} {e : EnvAct}
    (h : ((machine V A).solo β).env e w = some w') :
    e.exec A w = some w' := h

theorem standing_stable :
    (alone V A Unit).Stable (Standing w₀ hand dispatched rejected items) := by
  intro e w w' _ _ henv hw
  have henv := solo_env henv
  rcases EnvAct.mail_exec henv with
    ⟨_, _, _, _, _, _, _, hmail, _, _⟩
  exact {
    hand := by
      rw [hmail]
      exact hw.hand
    dispatched := by
      rw [hmail]
      exact hw.dispatched
    rejected := by
      rw [hmail]
      exact hw.rejected
    items := (EnvAct.items_exec henv).trans hw.items
    panics := by
      rw [EnvAct.life_exec henv]
      exact hw.panics }

theorem Op.panics_exec {op : Op V α} {input : Input V} {a : α}
    (h : op.exec A input w = some (w', a)) :
    w.life.panics <:+ w'.life.panics := by
  cases hlives : op.lives with
  | false =>
      rcases (Op.life_exec hlives h).right.right with hsame | ⟨site, hcons, _⟩
      · exact hsame.symm ▸ List.suffix_rfl
      · rw [hcons]
        exact List.suffix_cons ..
  | true =>
      cases op with
      | start =>
          cases h
          exact List.suffix_rfl
      | publish status =>
          cases h
          exact List.suffix_rfl
      | _ => cases hlives

def Op.decides : Op V α -> Bool
  | .mail (.pollRecv _) => true
  | .mail .tryRecv => true
  | .mail (.replyIsClosed _) => true
  | .mail (.beginDispatch _) => true
  | _ => false

theorem Op.custody_exec {op : Op V α} {input : Input V} {a : α}
    (hop : op.decides = false) (h : op.exec A input w = some (w', a)) :
    w'.mail.hand = w.mail.hand ∧ w'.mail.dispatched = w.mail.dispatched ∧
      w'.mail.rejected = w.mail.rejected := by
  cases op with
  | mail op =>
      cases h
      cases op with
      | close => exact ⟨rfl, rfl, rfl⟩
      | isEmpty => exact ⟨rfl, rfl, rfl⟩
      | respond id response => exact ⟨rfl, rfl, rfl⟩
      | beginCompletion id =>
          show (w.mail.beginCompletion w.control.mode id).1.hand = _ ∧
            (w.mail.beginCompletion w.control.mode id).1.dispatched = _ ∧
            (w.mail.beginCompletion w.control.mode id).1.rejected = _
          unfold Mail.beginCompletion
          split <;> exact ⟨rfl, rfl, rfl⟩
      | _ => cases hop
  | user site =>
      cases input with
      | user act =>
          cases act with
          | returns value =>
              cases h
              show (w.recordReturn site value).mail.hand = _ ∧
                (w.recordReturn site value).mail.dispatched = _ ∧
                (w.recordReturn site value).mail.rejected = _
              unfold World.recordReturn
              split
              · dsimp only
                exact ⟨rfl, rfl, rfl⟩
              · exact ⟨rfl, rfl, rfl⟩
          | _ => grind [Op.exec, World.userStep]
      | _ => cases h
  | spawn =>
      rw [Op.spawn_exec h]
      exact ⟨rfl, rfl, rfl⟩
  | _ => grind [Op.exec, World.wakeIf, World.transact]

theorem Standing.op_step {op : Op V α} {input : Input V} {a : α}
    (hdecides : op.decides = false) (hhandles : op.handles = false)
    (hexec : op.exec A input w = some (w', a))
    (h : Standing w₀ hand dispatched rejected items w) :
    Standing w₀ hand dispatched rejected items w' := by
  rcases Op.custody_exec hdecides hexec with ⟨hhand, hdispatched, hrejected⟩
  exact {
    hand := hhand.trans h.hand
    dispatched := hdispatched.trans h.dispatched
    rejected := hrejected.trans h.rejected
    items := (Op.items_same hhandles hexec).trans h.items
    panics := h.panics.trans (Op.panics_exec hexec) }

theorem Op.answers_decides {op : Op V α}
    (hop : answerParts.contains op.part = true) :
    op.decides = false ∧ op.handles = false := by
  cases op with
  | user site => cases site <;> first
      | (cases hop; done)
      | exact ⟨rfl, rfl⟩
  | sched op => cases op <;> first
      | (cases hop; done)
      | exact ⟨rfl, rfl⟩
  | mail op => cases op <;> first
      | (cases hop; done)
      | exact ⟨rfl, rfl⟩
  | _ => exact ⟨rfl, rfl⟩

/-- Telling a caller what became of its message changes none of it. -/
theorem answers_standing {H : World V -> Prop}
    (hH : forall w w' : World V, w.life.panics <:+ w'.life.panics ->
      H w -> H w') :
    (repertoire V answerParts).Keeps (alone V A Unit)
      (fun w => Standing w₀ hand dispatched rejected items w ∧ H w) where
  stable := by
    apply standing_stable.and
    intro e w w' _ _ henv hw
    refine hH w w' ?_ hw
    have hsame := EnvAct.life_exec (solo_env henv)
    exact hsame ▸ List.suffix_rfl
  op := by
    intro β op hop w _ hw
    rcases Op.answers_decides hop with ⟨hdecides, hhandles⟩
    refine ⟨trivial, ?_⟩
    intro input w' b _ hexec _
    have hexec := solo_exec hexec
    exact ⟨⟨hw.left.op_step hdecides hhandles hexec,
      hH w w' (Op.panics_exec hexec) hw.right⟩, trivial⟩

/-!
## Scheduling
-/

abbrev Begun (w₀ : World V) (envelope : Envelope) (items : Slots ScheduledFuture)
    (w : World V) : Prop :=
  Standing w₀ (w₀.mail.hand.erase envelope) (envelope :: w₀.mail.dispatched)
    w₀.mail.rejected items w

def Recorded (w₀ : World V) (w : World V) : Prop :=
  w₀.life.panics.count (.construct w₀.sched.items.next) <
    w.life.panics.count (.construct w₀.sched.items.next)

theorem Recorded.mono (hpanics : w.life.panics <:+ w'.life.panics)
    (h : Recorded w₀ w) : Recorded w₀ w' :=
  Nat.lt_of_lt_of_le h (hpanics.sublist.count_le _)

theorem panicked_of (h : Begun w₀ envelope w₀.sched.items.reserve w ∧
    Recorded w₀ w) : PanickedBy envelope w₀ w where
  dispatched := h.left.dispatched
  rejected := h.left.rejected
  items := h.left.items
  panicked := h.right

theorem construct_standing
    (hw : Begun w₀ envelope w₀.sched.items.reserve w) :
    wp (alone V A Unit) (callUser (.construct w₀.sched.items.next) : P V Unit)
      (fun _ => Begun w₀ envelope w₀.sched.items.reserve)
      (fun w => Begun w₀ envelope w₀.sched.items.reserve w ∧
        Recorded w₀ w) w := by
  have hrun : wp (alone V A Unit)
      (runUser (.construct w₀.sched.items.next) : P V (Option V))
      (fun _ => Begun w₀ envelope w₀.sched.items.reserve)
      (fun w => Begun w₀ envelope w₀.sched.items.reserve w ∧
        Recorded w₀ w) w := by
    apply wp.rounds (fun _ => Begun w₀ envelope w₀.sched.items.reserve) hw
    intro _ w hw
    apply wp.bind
    apply wp.op standing_stable hw
    intro w _ hw
    refine ⟨trivial, ?_⟩
    intro input w' step _ hexec _
    have hexec := solo_exec hexec
    have hw' := hw.op_step rfl rfl hexec
    cases step with
    | continues => exact wp.again hw'
    | returns value => exact wp.done hw'
    | panics =>
        refine wp.throw ⟨hw', ?_⟩
        unfold Recorded
        cases input with
        | user act =>
            have hstep : w.userStep A (.construct w₀.sched.items.next) act =
                some (w', .panics) := hexec
            rw [World.userStep_panics hstep, List.count_cons_self]
            exact Nat.lt_succ_of_le (hw.panics.sublist.count_le _)
        | _ => cases hexec
  apply wp.seq hrun
  intro _ w hw
  exact wp.pure hw

theorem place_scheduled {future : ReplyFuture}
    (hw : Begun w₀ envelope w₀.sched.items.reserve w) :
    wp (alone V A Unit) (do
        sched (.markReady w₀.sched.items.next)
        sched (.place w₀.sched.items.next future) : P V Unit)
      (fun _ => ScheduledBy envelope w₀) (PanickedBy envelope w₀) w := by
  have hmark : wp (alone V A Unit) (sched (.markReady w₀.sched.items.next))
      (fun _ => Begun w₀ envelope w₀.sched.items.reserve)
      (PanickedBy envelope w₀) w := by
    apply wp.op standing_stable hw
    intro w _ hw
    refine ⟨trivial, ?_⟩
    intro input w' _ _ hexec _
    exact hw.op_step rfl rfl (solo_exec hexec)
  apply wp.seq hmark
  intro _ w hw
  apply wp.op standing_stable hw
  intro w _ hw
  refine ⟨trivial, ?_⟩
  intro input w' _ _ hexec _
  rw [(Op.sched_result (solo_exec hexec)).left]
  have hitems : w.sched.items.place w₀.sched.items.next
      { future := future, returned := false } =
      w₀.sched.items.reserve.place w₀.sched.items.next
        { future := future, returned := false } := by
    rw [hw.items]
  exact {
    dispatched := hw.dispatched
    rejected := hw.rejected
    items := ⟨future, hitems⟩
    keys := by
      show (w.sched.items.place _ _).keys = _
      rw [hitems]
      unfold Slots.place
      rw [dif_pos]
      · rfl
      · refine ⟨Nat.lt_succ_self _, ?_⟩
        intro hmem
        rcases Slots.mem_keys_iff.mp hmem with ⟨scheduled, hget⟩
        exact Nat.lt_irrefl _ (Slots.lt_next hget) }

/-- A schedule whose builder returns or panics under the key it was given. -/
theorem schedule_standing {build : Key -> P V ReplyFuture}
    (hbuild : forall w, Begun w₀ envelope w₀.sched.items.reserve w ->
      wp (alone V A Unit) (build w₀.sched.items.next)
        (fun _ => Begun w₀ envelope w₀.sched.items.reserve)
        (PanickedBy envelope w₀) w)
    (hw : Begun w₀ envelope w₀.sched.items w) :
    wp (alone V A Unit) (Queue.schedule build)
      (fun _ => ScheduledBy envelope w₀) (PanickedBy envelope w₀) w := by
  have hreserve : wp (alone V A Unit) (sched .reserve)
      (fun key w => key = w₀.sched.items.next ∧
        Begun w₀ envelope w₀.sched.items.reserve w)
      (PanickedBy envelope w₀) w := by
    apply wp.op standing_stable hw
    intro w _ hw
    refine ⟨trivial, ?_⟩
    intro input w' key _ hexec _
    rcases Op.sched_result (solo_exec hexec) with ⟨hw', hkey⟩
    rw [hw']
    refine ⟨?_, { hw with items := ?_ }⟩
    · rw [← hkey]
      exact congrArg Slots.next hw.items
    · exact congrArg Slots.reserve hw.items
  apply wp.seq hreserve
  intro key w hw
  rcases hw with ⟨hkey, hw⟩
  rw [hkey]
  apply wp.seq (hbuild w hw)
  intro future w hw
  exact place_scheduled hw

theorem scheduleReply_standing (reply : DispatchReply)
    (hw : Begun w₀ envelope w₀.sched.items w) :
    wp (alone V A Unit) (scheduleReply reply : P V Unit)
      (fun _ => ScheduledBy envelope w₀) (PanickedBy envelope w₀) w := by
  apply schedule_standing _ hw
  intro w hw
  apply wp.bind
  apply wp.attempt
  apply wp.mono _ _ (construct_standing hw)
  · intro _ w hw
    exact wp.pure hw
  · intro w hw
    apply wp.seq (wp.mono (fun _ _ hw => hw) (fun _ hw => panicked_of hw)
      ((dropReply_uses repertoire_has reply).keeps
        (answers_standing (fun _ _ => Recorded.mono)) w hw))
    intro _ w hw
    exact panicked_of hw

theorem standing_parts {parts : List Part}
    (hparts : parts.all answerParts.contains = true) :
    (repertoire V parts).Keeps (alone V A Unit)
      (Standing w₀ hand dispatched rejected items) := by
  have hkeeps : (repertoire V answerParts).Keeps (alone V A Unit)
      (fun w => Standing w₀ hand dispatched rejected items w ∧ True) :=
    answers_standing (fun _ _ _ _ => trivial)
  simp only [and_true] at hkeeps
  exact repertoire_mono hkeeps hparts

theorem dispatchStream_standing (reply : DispatchReply)
    (hw : Begun w₀ envelope w₀.sched.items w) :
    wp (alone V A Unit) (StreamKind.dispatch reply : P V Unit)
      (fun _ => ScheduledBy envelope w₀) (PanickedBy envelope w₀) w := by
  apply wp.seq (completeReply_keeps (standing_parts rfl) reply none w hw)
  intro _ w hw
  apply schedule_standing _ hw
  intro w hw
  apply wp.seq (wp.mono (fun _ _ hw => hw) (fun _ hw => panicked_of hw)
    (construct_standing hw))
  intro _ w hw
  exact wp.pure hw

/-!
## Envelopes
-/

abbrev Undecided (w₀ : World V) : World V -> Prop :=
  Standing w₀ w₀.mail.hand w₀.mail.dispatched w₀.mail.rejected w₀.sched.items

abbrev TurnedDown (w₀ : World V) (envelope : Envelope) : World V -> Prop :=
  Standing w₀ (w₀.mail.hand.erase envelope) w₀.mail.dispatched
    (envelope :: w₀.mail.rejected) w₀.sched.items

def Disposed (envelope : Envelope) (w w' : World V) : Prop :=
  RejectedBy envelope w w' ∨ ScheduledBy envelope w w'

theorem disposed_of_turnedDown (h : TurnedDown w₀ envelope w) :
    Disposed envelope w₀ w :=
  Or.inl ⟨h.rejected, h.dispatched, h.items⟩

theorem Standing.reject (hmem : envelope ∈ w₀.mail.hand)
    (h : Undecided w₀ w) :
    TurnedDown w₀ envelope { w with mail := w.mail.reject envelope } := by
  have hcond : envelope ∈ w.mail.hand := by
    rw [h.hand]
    exact hmem
  unfold Mail.reject
  rw [if_pos hcond]
  exact {
    hand := by rw [← h.hand]
    dispatched := h.dispatched
    rejected := by rw [← h.rejected]
    items := h.items
    panics := h.panics }

theorem replyIsClosed_standing {X : World V -> Prop}
    (hmem : envelope ∈ w₀.mail.hand) (hw : Undecided w₀ w) :
    wp (alone V A Unit) (mail (.replyIsClosed envelope))
      (fun closed w =>
        if closed then TurnedDown w₀ envelope w else Undecided w₀ w) X w := by
  apply wp.op standing_stable hw
  intro w _ hw
  refine ⟨trivial, ?_⟩
  intro input w' closed _ hexec _
  have hexec := solo_exec hexec
  rw [Op.exec] at hexec
  injection hexec with hexec
  injection hexec with hw' hclosed
  change (w.mail.replyIsClosed envelope).2 = closed at hclosed
  change { w with mail := (w.mail.replyIsClosed envelope).1 } = w' at hw'
  subst hw' hclosed
  unfold Mail.replyIsClosed
  split
  · exact hw.reject hmem
  · exact hw

theorem beginDispatch_standing {X : World V -> Prop}
    (hmem : envelope ∈ w₀.mail.hand) (hw : Undecided w₀ w) :
    wp (alone V A Unit) (mail (.beginDispatch envelope))
      (fun result w =>
        match result with
        | .ok _ => Begun w₀ envelope w₀.sched.items w
        | .error _ => TurnedDown w₀ envelope w) X w := by
  apply wp.op standing_stable hw
  intro w _ hw
  refine ⟨trivial, ?_⟩
  intro input w' result _ hexec _
  have hexec := solo_exec hexec
  rw [Op.exec] at hexec
  injection hexec with hexec
  injection hexec with hw' hresult
  change (w.mail.beginDispatch w.control.mode envelope).2 = result at hresult
  change { w with mail := (w.mail.beginDispatch w.control.mode envelope).1 } =
    w' at hw'
  subst hw' hresult
  have hcond : envelope ∈ w.mail.hand := by
    rw [hw.hand]
    exact hmem
  unfold Mail.beginDispatch
  cases hgate : (beginDispatch w.control.mode).2 with
  | ok _ =>
      dsimp only
      rw [if_pos hcond]
      exact {
        hand := by rw [← hw.hand]
        dispatched := by rw [← hw.dispatched]
        rejected := hw.rejected
        items := hw.items
        panics := hw.panics }
  | error error => exact hw.reject hmem

theorem turnedDown_disposes {p : P V Unit}
    (hp : Keeps (alone V A Unit) (TurnedDown w₀ envelope)
      (PanickedBy envelope w₀) p) (hw : TurnedDown w₀ envelope w) :
    wp (alone V A Unit) p (fun _ => Disposed envelope w₀)
      (PanickedBy envelope w₀) w :=
  wp.mono (fun _ _ hw => disposed_of_turnedDown hw) (fun _ hX => hX) (hp w hw)

theorem dropMessage_disposes (hw : TurnedDown w₀ envelope w) :
    wp (alone V A Unit) (dropUserValue (callUser .message) : P V Unit)
      (fun _ => Disposed envelope w₀) (PanickedBy envelope w₀) w :=
  turnedDown_disposes (dropValue_keeps (standing_parts rfl) rfl) hw

theorem rejectCall_disposes (error : CallError)
    (hw : TurnedDown w₀ envelope w) :
    wp (alone V A Unit) (CallEnvelope.reject envelope error : P V Unit)
      (fun _ => Disposed envelope w₀) (PanickedBy envelope w₀) w := by
  apply wp.seq (notifyResponse_keeps (standing_parts rfl) _ _ w hw)
  intro _ w hw
  exact dropMessage_disposes hw

theorem rejectStreamTo_disposes (error : CallError)
    (hw : TurnedDown w₀ envelope w) :
    wp (alone V A Unit) (StreamToEnvelope.reject envelope error : P V Unit)
      (fun _ => Disposed envelope w₀) (PanickedBy envelope w₀) w := by
  have hnotify : Keeps (alone V A Unit) (TurnedDown w₀ envelope)
      (PanickedBy envelope w₀)
      (notifyResponse envelope.id (.error error) : P V Unit) :=
    notifyResponse_keeps (standing_parts rfl) _ _
  apply wp.seq (Keeps.onlyIf hnotify w hw)
  intro _ w hw
  apply wp.seq (dropValue_keeps (standing_parts rfl) rfl w hw)
  intro _ w hw
  exact turnedDown_disposes (dropValue_keeps (standing_parts rfl) rfl) hw

/-- Reading why a message that never left the mailbox fails. -/
theorem queuedFailure_keeps {X : World V -> Prop} :
    Keeps (alone V A Unit) (Standing w₀ hand dispatched rejected items) X
      (queuedFailure : P V CallError) := by
  have hlooks : (repertoire V [.looks]).Keeps (alone V A Unit)
      (Standing w₀ hand dispatched rejected items) := standing_parts rfl
  exact Keeps.bind (hlooks.perform .mode rfl) (fun _ => Keeps.pure _)

theorem dispatchCall_disposes {kind : DispatchReply -> P V Unit}
    (hkind : forall reply w, Begun w₀ envelope w₀.sched.items w ->
      wp (alone V A Unit) (kind reply) (fun _ => ScheduledBy envelope w₀)
        (PanickedBy envelope w₀) w)
    (hmem : envelope ∈ w₀.mail.hand) (hw : Undecided w₀ w) :
    wp (alone V A Unit) (CallEnvelope.dispatch kind envelope)
      (fun _ => Disposed envelope w₀) (PanickedBy envelope w₀) w := by
  apply wp.seq (replyIsClosed_standing hmem hw)
  intro closed w hw
  cases closed with
  | true =>
      apply wp.seq (queuedFailure_keeps w hw)
      intro error w hw
      exact rejectCall_disposes error hw
  | false =>
      apply wp.seq (beginDispatch_standing hmem hw)
      intro result w hw
      cases result with
      | error error => exact rejectCall_disposes error hw
      | ok _ =>
          exact wp.mono (fun _ _ hw => Or.inr hw) (fun _ hX => hX)
            (hkind _ w hw)

theorem dispatchSend_disposes (hmem : envelope ∈ w₀.mail.hand)
    (hw : Undecided w₀ w) :
    wp (alone V A Unit) (SendEnvelope.dispatch envelope : P V Unit)
      (fun _ => Disposed envelope w₀) (PanickedBy envelope w₀) w := by
  apply wp.seq (beginDispatch_standing hmem hw)
  intro result w hw
  cases result with
  | error error => exact dropMessage_disposes hw
  | ok _ =>
      exact wp.mono (fun _ _ hw => Or.inr hw) (fun _ hX => hX)
        (scheduleReply_standing _ hw)

theorem dispatchStreamTo_disposes (hmem : envelope ∈ w₀.mail.hand)
    (hw : Undecided w₀ w) :
    wp (alone V A Unit) (StreamToEnvelope.dispatch envelope : P V Unit)
      (fun _ => Disposed envelope w₀) (PanickedBy envelope w₀) w := by
  have hclosed : wp (alone V A Unit)
      (StreamToEnvelope.isClosed envelope : P V Bool)
      (fun closed w =>
        if closed then TurnedDown w₀ envelope w else Undecided w₀ w)
      (PanickedBy envelope w₀) w := by
    unfold StreamToEnvelope.isClosed
    split
    · exact replyIsClosed_standing hmem hw
    · exact wp.pure hw
  apply wp.seq hclosed
  intro closed w hw
  cases closed with
  | true =>
      apply wp.seq (queuedFailure_keeps w hw)
      intro error w hw
      exact rejectStreamTo_disposes error hw
  | false =>
      apply wp.seq (beginDispatch_standing hmem hw)
      intro result w hw
      cases result with
      | error error => exact rejectStreamTo_disposes error hw
      | ok _ =>
          exact wp.mono (fun _ _ hw => Or.inr hw) (fun _ hX => hX)
            (scheduleReply_standing _ hw)

theorem dispatch_disposes (hmem : envelope ∈ w₀.mail.hand) :
    wp (alone V A Unit) (envelope.dispatch : P V Unit)
      (fun _ => Disposed envelope w₀) (PanickedBy envelope w₀) w₀ := by
  have hw : Undecided w₀ w₀ := ⟨rfl, rfl, rfl, rfl, List.suffix_rfl⟩
  unfold Envelope.dispatch
  cases envelope.kind with
  | call =>
      exact dispatchCall_disposes (fun reply _ => scheduleReply_standing reply)
        hmem hw
  | stream =>
      exact dispatchCall_disposes (fun reply _ => dispatchStream_standing reply)
        hmem hw
  | send => exact dispatchSend_disposes hmem hw
  | callTo => exact dispatchStreamTo_disposes hmem hw
  | sendTo => exact dispatchStreamTo_disposes hmem hw

/-!
## The limit and the schedules
-/

theorem disposed_stable :
    (alone V A Unit).Stable (Disposed envelope w₀) := by
  intro e w w' _ _ henv hw
  have henv := solo_env henv
  have hitems := EnvAct.items_exec henv
  rcases EnvAct.mail_exec henv with ⟨_, _, _, _, _, _, _, hmail, _, _⟩
  cases hw with
  | inl hrejected =>
      refine Or.inl ⟨?_, ?_, hitems.trans hrejected.items⟩
      · rw [hmail]
        exact hrejected.rejected
      · rw [hmail]
        exact hrejected.dispatched
  | inr hscheduled =>
      refine Or.inr ⟨?_, ?_, ?_, ?_⟩
      · rw [hmail]
        exact hscheduled.dispatched
      · rw [hmail]
        exact hscheduled.rejected
      · rw [hitems]
        exact hscheduled.items
      · rw [hitems]
        exact hscheduled.keys

theorem panickedBy_stable :
    (alone V A Unit).Stable (PanickedBy envelope w₀) := by
  intro e w w' _ _ henv hw
  have henv := solo_env henv
  rcases EnvAct.mail_exec henv with ⟨_, _, _, _, _, _, _, hmail, _, _⟩
  refine ⟨?_, ?_, (EnvAct.items_exec henv).trans hw.items, ?_⟩
  · rw [hmail]
    exact hw.dispatched
  · rw [hmail]
    exact hw.rejected
  · rw [EnvAct.life_exec henv]
    exact hw.panicked

/--
In every state that an actor reaches, the queue is within its limit, and where
a reply is about to be scheduled there is capacity and no lease.  A dispatch of
an envelope in hand schedules one reply, or it rejects the envelope and
schedules none, unless the construction of the handler panics.
-/
theorem inflight_limit_kept (V : Type) (A : ActorConfig) :
    (forall c : ActorState V, Reachable A c ->
      Bounded A c.state ∧
        forall next, c.prog = .act (.sched .reserve) next ->
          HasDispatchCapacity A c.state) ∧
    forall (envelope : Envelope) (w w' : World V),
      envelope ∈ w.mail.hand ->
        ((machine V A).Returns envelope.dispatch w w' () ->
          RejectedBy envelope w w' ∨ ScheduledBy envelope w w') ∧
        ((machine V A).Unwinds envelope.dispatch w w' ->
          PanickedBy envelope w w') := by
  constructor
  · intro c h
    have hsafe := capacity_safe h
    refine ⟨hsafe.inv, ?_⟩
    intro next hprog
    rcases c with ⟨w, prog⟩
    subst hprog
    exact hsafe.demands
  · intro envelope w w' hmem
    constructor
    · intro hreturns
      have hdisposed : Disposed envelope w w' :=
        Machine.Returns.holds (Q := fun _ => Disposed envelope w)
          disposed_stable (dispatch_disposes hmem) hreturns
      exact hdisposed
    · intro hunwinds
      exact Machine.Unwinds.holds panickedBy_stable (dispatch_disposes hmem)
        hunwinds

/-- A bounded mailbox in front of at most two active replies. -/
def paired : ActorConfig where
  mailbox := some (.bounded 4)
  limit := some 2
  limitPositive := by
    intro n hn
    cases hn
    decide
  mailboxDispatchBudget := 16
  budgetPositive := by decide
  children := none
  parent := false

def crowdedCalls : List (Event (Input Unit) EnvAct) :=
  [.env .reserve, .env .reserve, .env .reserve, .env (.admitEnvelope .call),
    .env (.admitEnvelope .stream), .env (.admitEnvelope .call),
    .actor (.spawn true), .actor (.user (.returns none)),
    .actor (.user (.returns (some ()))), .actor (.user (.returns none))]

def takenFirst : ActorState Unit :=
  (machine Unit paired).stage .next 100 crowdedCalls 14 (initial Unit paired)

/-- Two replies are active, and the third call waits. -/
def crowdedActor : ActorState Unit :=
  (machine Unit paired).stage .next 100
    (crowdedCalls ++ List.replicate 3 (.actor (.user (.returns none)))) 100
    (initial Unit paired)

def firstCall : Envelope := { id := 0, kind := .call }

def dispatchedFirst : Config (Op Unit) (World Unit) Unit :=
  ((machine Unit paired).solo Unit).stage .next 20
    [.actor (.user (.returns none))] 20 ⟨takenFirst.state, firstCall.dispatch⟩

theorem crowdedActor_bounded :
    (Bounded paired crowdedActor.state ∧
      crowdedActor.state.sched.items.length = 2 ∧
      crowdedActor.state.mail.queue.length = 1) ∧
    (RejectedBy firstCall takenFirst.state dispatchedFirst.state ∨
      ScheduledBy firstCall takenFirst.state dispatchedFirst.state) := by
  have hreach : Reachable paired crowdedActor :=
    Machine.stage_reaches (fun _ => trivial) (fun _ _ _ => trivial) _ _ _
  have hmeets : (machine Unit paired).Meets firstCall.dispatch
      takenFirst.state dispatchedFirst :=
    Machine.stage_reaches (fun _ => trivial) (fun _ _ _ => trivial) _ _ _
  rcases hmeets.returned (by decide +kernel) with ⟨_, hreturns⟩
  refine ⟨⟨((inflight_limit_kept Unit paired).left _ hreach).left,
    by decide +kernel, by decide +kernel⟩, ?_⟩
  exact ((inflight_limit_kept Unit paired).right firstCall _ _
    (by decide +kernel)).left hreturns

end Loac

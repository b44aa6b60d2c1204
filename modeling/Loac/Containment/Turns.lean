import Loac.Containment.Waiting

/-!
# What the turns keep

The scheduler and the lanes of a turn keep what their operations keep.
-/

namespace Loac

open Interleave

variable {V α β γ : Type}

def SchedulerTurn.Reports (T : ChildExit -> World V -> Prop) (w : World V) :
    SchedulerTurn -> Prop
  | .child event => T event w
  | _ => True

def Visit.Reports (T : ChildExit -> World V -> Prop) (w : World V) :
    Visit -> Prop
  | .selected turn => turn.Reports T w
  | .leave (some turn) => turn.Reports T w
  | _ => True

namespace Sound

open Prog

variable {A : ActorConfig} {D : Discipline (machine V A)} {n : Nat}
  {K X Y : World V -> Prop}

/-!
## Polling replies
-/

theorem pollComplete (h : Sound D n K X) (hn : 5 <= n) (key : Key) :
    Keeps D K X (CompleteReply.poll key : P V Bool) := by
  refine Keeps.bind (h.runUser _ hn) fun value => ?_
  cases value with
  | none => exact Keeps.pure false
  | some value =>
      refine Keeps.bind (h.sched _ hn) fun reply => ?_
      cases reply with
      | none => exact Keeps.throw h.weaken
      | some reply =>
          exact Keeps.bind (h.completeReply (by omega) reply _) (fun _ => Keeps.pure true)

theorem pollStream (h : Sound D n K X) (hn : 5 <= n) (key : Key) :
    Keeps D K X (FinishStream.poll key : P V Bool) := by
  refine Keeps.bind (h.runUser _ hn) fun value => ?_
  cases value with
  | none => exact Keeps.pure false
  | some _ =>
      refine Keeps.bind (h.sched _ hn) fun final => ?_
      have hsend : Keeps D K X (Loac.callUser .finalSend : P V Unit) :=
        h.callUser _ (Nat.le_trans (by decide : 2 <= 5) hn)
      exact Keeps.bind (Keeps.onlyIf hsend) (fun _ => Keeps.pure true)

theorem pollWithTask (h : Sound D n K X) (hn : 5 <= n) (key : Key)
    (scheduled : ScheduledFuture) :
    Keeps D K X (scheduled.pollWithTask key : P V Bool) := by
  refine Keeps.bind (h.sched _ hn) fun _ => ?_
  cases scheduled.future with
  | completeReply _ => exact h.pollComplete hn key
  | finishStream _ => exact h.pollStream hn key

/-!
## The scheduler
-/

theorem remove (h : Sound D n K X) (hunwound : Sound D n X X) (hn : 6 <= n)
    (key : Key) : Keeps D K Y (Queue.remove key : P V Unit) := by
  refine Keeps.bind (h.sched _ hn) fun scheduled => ?_
  cases scheduled with
  | none => exact Keeps.pure ()
  | some scheduled =>
      have hdrop := h.dropScheduled hunwound key false
        (Nat.le_trans (by decide : 4 <= 6) hn) (by omega) scheduled
      exact h.dropUserValue hdrop

theorem forceRelease (h : Sound D n K X) (hn : 6 <= n) :
    Keeps D K Y (Loac.sched .forceRelease : P V Unit) :=
  h.sched _ (Nat.le_trans (by decide : 2 <= 6) hn)

theorem complete (h : Sound D n K X) (hunwound : Sound D n X X) (hn : 6 <= n)
    (key : Key) : Keeps D K Y (Queue.complete key : P V Unit) :=
  Keeps.bind (h.remove hunwound hn key) fun _ =>
    Keeps.bind (h.sched _ hn) (fun _ => Keeps.onlyIf (h.forceRelease hn))

theorem pollLeased (h : Sound D n K X) (hunwound : Sound D n X X) (hn : 6 <= n)
    (turn : TurnContext) (key : Key) :
    Keeps D K X (Queue.pollLeased turn key : P V ReplyPoll) := by
  refine Keeps.bind (h.sched _ hn) fun scheduled => ?_
  cases scheduled with
  | none => exact Keeps.bind (h.forceRelease hn) (fun _ => Keeps.pure _)
  | some scheduled =>
      refine Keeps.bind (h.sched _ hn) fun ready => ?_
      refine Keeps.ite ?_ (Keeps.pure _)
      refine Keeps.bind (h.pollWithTask (by omega) key scheduled) fun ready => ?_
      refine Keeps.bind (h.sched _ hn) fun held => ?_
      refine Keeps.bind (h.differs _) fun differs => ?_
      apply Keeps.ite (Keeps.pure _)
      apply Keeps.ite
      · exact Keeps.bind (h.complete hunwound hn key) (fun _ => Keeps.pure _)
      · exact Keeps.ite (Keeps.pure _) (Keeps.pure _)

theorem drain (h : Sound D n K X) (hunwound : Sound D n X X) (hn : 6 <= n)
    (turn : TurnContext) :
    Keeps D K X (Queue.drain turn : P V (Option Bool)) := by
  apply Keeps.iter
  intro state
  refine Keeps.ite ?_ (Keeps.done _)
  refine Keeps.bind (h.differs _) fun differs => ?_
  apply Keeps.ite (Keeps.done _)
  refine Keeps.bind (h.sched _ hn) fun key => ?_
  cases key with
  | none => exact Keeps.done _
  | some key =>
      refine Keeps.bind (h.sched _ hn) fun scheduled => ?_
      cases scheduled with
      | none => exact Keeps.again _
      | some scheduled =>
          refine Keeps.bind (h.sched _ hn) fun ready => ?_
          refine Keeps.ite ?_ (Keeps.again _)
          refine Keeps.bind (h.pollWithTask (by omega) key scheduled)
            fun ready => ?_
          apply Keeps.ite
          · exact Keeps.bind (h.complete hunwound hn key)
              (fun _ => Keeps.again _)
          · refine Keeps.bind (h.sched _ hn) fun held => ?_
            exact Keeps.ite (Keeps.done _) (Keeps.again _)

theorem pollReady (h : Sound D n K X) (hunwound : Sound D n X X) (hn : 6 <= n)
    (turn : TurnContext) :
    Keeps D K X (Queue.pollReady turn : P V ReplyPoll) := by
  refine Keeps.bind (h.drain hunwound hn turn) fun completed => ?_
  cases completed with
  | none => exact Keeps.pure _
  | some completed =>
      refine Keeps.bind (h.differs _) fun differs => ?_
      apply Keeps.ite (Keeps.pure _)
      refine Keeps.bind (h.sched _ hn) fun empty => ?_
      apply Keeps.ite
      · exact Keeps.ite (Keeps.pure _) (Keeps.pure _)
      · exact Keeps.bind h.wakeTask (fun _ => Keeps.pure _)

theorem pollQueue (h : Sound D n K X) (hunwound : Sound D n X X) (hn : 6 <= n)
    (turn : TurnContext) : Keeps D K X (Queue.poll turn : P V ReplyPoll) := by
  refine Keeps.bind (h.sched _ hn) fun held => ?_
  cases held with
  | none => exact h.pollReady hunwound hn turn
  | some key => exact h.pollLeased hunwound hn turn key

theorem schedule (h : Sound D n K X) (hn : 6 <= n)
    {build : Key -> P V ReplyFuture}
    (hbuild : forall key, Keeps D K X (build key)) :
    Keeps D K X (Queue.schedule build) := by
  refine Keeps.bind (h.sched _ hn) fun key => ?_
  refine Keeps.bind (hbuild key) fun future => ?_
  exact Keeps.bind (h.sched _ hn) (fun _ => h.sched _ hn)

theorem scheduleReply (h : Sound D n K X) (hunwound : Sound D n X X)
    (hn : 6 <= n) (reply : DispatchReply) :
    Keeps D K X (Loac.scheduleReply reply : P V Unit) := by
  apply h.schedule hn
  intro key w hw
  have hconstruct : Keeps D K X (Loac.callUser (.construct key)) :=
    h.callUser _ (Nat.le_trans (by decide : 5 <= 6) hn)
  apply wp.bind
  apply wp.attempt
  apply wp.mono _ _ (hconstruct w hw)
  · intro _ w' hw'
    exact hw'
  · intro w' hw'
    apply wp.bind
    apply wp.mono _ (fun _ hX => hX) (hunwound.dropReply (by omega) reply w' hw')
    intro _ w'' hw''
    exact hw''

theorem dispatchStream (h : Sound D n K X) (hn : 6 <= n)
    (reply : DispatchReply) :
    Keeps D K X (StreamKind.dispatch reply : P V Unit) := by
  refine Keeps.bind (h.completeReply (by omega) reply none) fun _ => ?_
  apply h.schedule hn
  intro key
  exact Keeps.bind (h.callUser _ (Nat.le_trans (by decide : 5 <= 6) hn))
    (fun _ => Keeps.pure _)

theorem dispatchCall (h : Sound D n K X) (hn : 6 <= n)
    {kind : DispatchReply -> P V Unit}
    (hkind : forall reply, Keeps D K X (kind reply)) (envelope : Envelope) :
    Keeps D K X (CallEnvelope.dispatch kind envelope) := by
  refine Keeps.bind (h.mail _ hn) fun closed => ?_
  apply Keeps.ite
  · exact Keeps.bind (h.callFailure _) (fun _ => h.rejectCall (by omega) _ _)
  · refine Keeps.bind (h.mail _ hn) fun result => ?_
    cases result with
    | error error =>
        exact Keeps.bind (h.notifyResponse (by omega) _ _)
          (fun _ => h.dropCalled _ (Nat.le_trans (by decide : 1 <= 6) hn))
    | ok _ => exact hkind _

theorem dispatchSend (h : Sound D n K X) (hunwound : Sound D n X X)
    (hn : 6 <= n) (envelope : Envelope) :
    Keeps D K X (SendEnvelope.dispatch envelope : P V Unit) := by
  refine Keeps.bind (h.mail _ hn) fun result => ?_
  cases result with
  | error _ => exact h.dropCalled _ (Nat.le_trans (by decide : 1 <= 6) hn)
  | ok _ => exact h.scheduleReply hunwound hn _

theorem dispatchStreamTo (h : Sound D n K X) (hunwound : Sound D n X X)
    (hn : 6 <= n) (envelope : Envelope) :
    Keeps D K X (StreamToEnvelope.dispatch envelope : P V Unit) := by
  have hclosed : Keeps D K X (StreamToEnvelope.isClosed envelope : P V Bool) :=
    Keeps.ite (h.mail _ hn) (Keeps.pure _)
  refine Keeps.bind hclosed fun closed => ?_
  apply Keeps.ite
  · exact Keeps.bind (h.callFailure _) (fun _ => h.rejectStreamTo (by omega) _ _)
  · refine Keeps.bind (h.mail _ hn) fun result => ?_
    cases result with
    | error error =>
        have hone : 1 <= n := by omega
        exact Keeps.bind (Keeps.onlyIf (h.notifyResponse hone _ _)) fun _ =>
          Keeps.bind (h.dropCalled _ hone) (fun _ => h.dropCalled _ hone)
    | ok _ => exact h.scheduleReply hunwound hn _

theorem dispatch (h : Sound D n K X) (hunwound : Sound D n X X) (hn : 6 <= n)
    (envelope : Envelope) : Keeps D K X (envelope.dispatch : P V Unit) := by
  unfold Envelope.dispatch
  cases envelope.kind with
  | call => exact h.dispatchCall hn (h.scheduleReply hunwound hn) envelope
  | stream => exact h.dispatchCall hn (h.dispatchStream hn) envelope
  | send => exact h.dispatchSend hunwound hn envelope
  | callTo => exact h.dispatchStreamTo hunwound hn envelope
  | sendTo => exact h.dispatchStreamTo hunwound hn envelope

/-!
## Lanes
-/

theorem hasReplies (h : Sound D n K X) (hn : 6 <= n) :
    Keeps D K Y (Loac.hasReplies : P V Bool) :=
  Keeps.bind (h.sched _ hn) (fun _ => Keeps.pure _)

theorem hasDispatchCapacity (h : Sound D n K X) (hn : 6 <= n) :
    Keeps D K Y (Loac.hasDispatchCapacity A : P V Bool) :=
  Keeps.bind (Keeps.bind (h.sched _ hn) (fun _ => Keeps.pure _)) fun _ =>
    Keeps.bind (h.sched _ hn) (fun _ => Keeps.pure _)

theorem mailboxLane (h : Sound D n K X) (hunwound : Sound D n X X)
    (hn : 6 <= n) (turn : TurnContext) (start : ReplyLane)
    {T : ChildExit -> World V -> Prop} {w : World V} (hw : K w) :
    wp D (Loac.mailboxLane A turn start)
      (fun visit w => K w ∧ visit.Reports T w) X w := by
  apply wp.iter (fun _ => K) hw
  intro dispatched w hw
  apply wp.seq (h.mail (.pollRecv turn) hn w hw)
  intro received w hw
  cases received with
  | envelope envelope =>
      apply wp.seq (h.dispatch hunwound hn envelope w hw)
      intro _ w hw
      apply wp.seq (h.differs _ w hw)
      intro differs w hw
      cases differs with
      | true =>
          apply wp.seq (h.sched (.setCursor ReplyLane.mailbox.next)
            (Nat.zero_le n) w hw)
          intro _ w hw
          exact wp.done ⟨hw, trivial⟩
      | false =>
          by_cases hbudget : dispatched + 1 = A.mailboxDispatchBudget
          · simp only [hbudget]
            exact wp.done ⟨hw, trivial⟩
          · simp only [hbudget]
            apply wp.seq (h.hasDispatchCapacity hn w hw)
            intro capacity w hw
            cases capacity with
            | true => exact wp.again hw
            | false => exact wp.done ⟨hw, trivial⟩
  | closed => exact wp.done ⟨hw, trivial⟩
  | pending =>
      by_cases hstart : dispatched > 0 ∧ start = .reply
      · simp only [if_pos hstart]
        apply wp.seq (h.hasReplies hn w hw)
        intro replies w hw
        cases replies with
        | true => exact wp.done ⟨hw, trivial⟩
        | false => exact wp.done ⟨hw, trivial⟩
      · simp only [if_neg hstart]
        exact wp.done ⟨hw, trivial⟩

theorem replyLane (h : Sound D n K X) (hunwound : Sound D n X X) (hn : 6 <= n)
    (turn : TurnContext) {T : ChildExit -> World V -> Prop} {w : World V}
    (hw : K w) :
    wp D (Loac.replyLane turn) (fun visit w => K w ∧ visit.Reports T w) X w := by
  apply wp.seq (h.pollQueue hunwound hn turn w hw)
  intro result w hw
  cases result with
  | pending => exact wp.pure ⟨hw, trivial⟩
  | progress => exact wp.pure ⟨hw, trivial⟩
  | leased => exact wp.pure ⟨hw, trivial⟩
  | budgetExhausted =>
      apply wp.seq (h.sched (.setCursor ReplyLane.reply.next)
        (Nat.zero_le n) w hw)
      intro _ w hw
      exact wp.pure ⟨hw, trivial⟩

theorem pollActorReplies (h : Sound D n K X) (hunwound : Sound D n X X)
    (hn : 6 <= n) (turn : TurnContext) :
    Keeps D K X (Loac.pollActorReplies A turn : P V (Poll Unit)) := by
  unfold Loac.pollActorReplies
  cases A.mailbox with
  | none => exact Keeps.pure _
  | some _ =>
      refine Keeps.bind (h.pollQueue hunwound hn turn) fun result => ?_
      cases result <;> exact Keeps.pure _

/-!
## Turns
-/

def PollReports (T : ChildExit -> World V -> Prop) (w : World V) :
    Poll SchedulerTurn -> Prop
  | some turn => turn.Reports T w
  | none => True

/--
The event receiver reports true events, and a true report stays true while
nothing but waiting happens.
-/
structure Reporting (D : Discipline (machine V A)) (K : World V -> Prop)
    (T : ChildExit -> World V -> Prop) : Prop where
  idle : forall event, Idle D (fun w => K w ∧ T event w)
  exits : forall w reception event, D.inv w -> K w ->
    (w.kin.pollExit reception).2 = some event ->
      T event { w with kin := (w.kin.pollExit reception).1 }

theorem Reporting.turn {T : ChildExit -> World V -> Prop}
    (hreport : Reporting D K T) (hidle : Idle D K) (turn : SchedulerTurn) :
    Idle D (fun w => K w ∧ turn.Reports T w) := by
  have htrivial : Idle D (fun w => K w ∧ True) := by
    simpa only [and_true] using hidle
  cases turn with
  | child event => exact hreport.idle event
  | lifecycleHint => exact htrivial
  | progress => exact htrivial
  | inboxClosed => exact htrivial

theorem pollChild (h : Sound D n K X) (hn : 2 <= n)
    {T : ChildExit -> World V -> Prop} (hreport : Reporting D K T)
    {w : World V} (hw : K w) :
    wp D Loac.pollChild (fun r w => K w ∧ PollReports T w r) X w := by
  apply wp.bind
  apply wp.op h.stable hw
  intro w hinv hw
  have hop := h.op (.kin .pollExit) hn w hinv hw
  constructor
  · exact hop.left
  · intro input w' event hadmits hexec hinv'
    have hw' := (hop.right input w' event hadmits hexec hinv').left rfl
    cases hexec
    cases hevent : (w.kin.pollExit input.reception).2 with
    | none =>
        simp only [KinOp.exec, hevent]
        exact wp.pure ⟨hw', trivial⟩
    | some event =>
        have hregular := (Kin.pollExit_some hevent).left
        have htrue := hreport.exits w input.reception event hinv hw hevent
        simp only [KinOp.exec, hevent]
        apply wp.pure
        refine ⟨hw', ?_⟩
        show T event { w with
          task := KinOp.pollExit.refuses input.reception || w.task
          kin := (w.kin.pollExit input.reception).1 }
        rw [hregular]
        exact htrue

theorem visit (h : Sound D n K X) (hunwound : Sound D n X X) (hn : 6 <= n)
    {T : ChildExit -> World V -> Prop} (hreport : Reporting D K T)
    (turn : TurnContext) (start lane : ReplyLane) {w : World V} (hw : K w) :
    wp D (Loac.visit A turn start lane)
      (fun visit w => K w ∧ visit.Reports T w) X w := by
  cases lane with
  | mailbox =>
      apply wp.seq (h.hasDispatchCapacity hn w hw)
      intro capacity w hw
      cases hreceive : turn.receiveMessages && capacity with
      | true => exact h.mailboxLane hunwound hn turn start hw
      | false => exact wp.pure ⟨hw, trivial⟩
  | reply =>
      apply wp.seq (h.hasReplies hn w hw)
      intro replies w hw
      cases replies with
      | true => exact h.replyLane hunwound hn turn hw
      | false => exact wp.pure ⟨hw, trivial⟩
  | childExit =>
      apply wp.seq (h.pollChild (by omega) hreport hw)
      intro result w hw
      cases result with
      | some turn => exact wp.pure hw
      | none => exact wp.pure hw

theorem pollLanes (h : Sound D n K X) (hunwound : Sound D n X X)
    (hidle : Idle D K) (hn : 6 <= n)
    {T : ChildExit -> World V -> Prop} (hreport : Reporting D K T)
    (turn : TurnContext) (start : ReplyLane) {w : World V} (hw : K w) :
    wp D (Loac.pollLanes A turn start) (fun r w => K w ∧ PollReports T w r)
      X w := by
  apply wp.iter (fun _ => K) hw
  intro lane w hw
  apply wp.seq (h.differs _ w hw)
  intro differs w hw
  cases differs with
  | true => exact wp.done ⟨hw, trivial⟩
  | false =>
      apply wp.seq (h.visit hunwound hn hreport turn start lane hw)
      intro visit w hw
      cases visit with
      | leave result =>
          cases result with
          | some turn => exact wp.done hw
          | none => exact wp.done ⟨hw.left, trivial⟩
      | selected selected =>
          have hsteady := hreport.turn hidle selected
          apply wp.seq (hsteady.sched (.setCursor lane.next) (Nat.zero_le 0) w hw)
          intro _ w hw
          exact wp.done hw
      | nothing =>
          by_cases hlane : lane.next = start
          · simp only [if_pos hlane]
            apply wp.seq (h.sched (.setCursor start.next) (Nat.zero_le n) w
              hw.left)
            intro _ w hw
            exact wp.done ⟨hw, trivial⟩
          · simp only [if_neg hlane]
            exact wp.again hw.left

theorem pollTurn (h : Sound D n K X) (hn : 2 <= n)
    (hmail : A.mailbox ≠ none -> Sound D 6 K X ∧ Sound D 6 X X)
    (hidle : Idle D K) {T : ChildExit -> World V -> Prop} (hreport : Reporting D K T)
    (turn : TurnContext) {w : World V} (hw : K w) :
    wp D (Loac.pollTurn A turn) (fun r w => K w ∧ PollReports T w r) X w := by
  unfold Loac.pollTurn
  cases hbox : A.mailbox with
  | none =>
      apply wp.seq (h.differs _ w hw)
      intro differs w hw
      cases differs with
      | true => exact wp.pure ⟨hw, trivial⟩
      | false => exact h.pollChild hn hreport hw
  | some _ =>
      rcases hmail (by simp [hbox]) with ⟨h, hunwound⟩
      have hn : 6 <= 6 := Nat.le_refl 6
      apply wp.seq (h.differs _ w hw)
      intro differs w hw
      cases differs with
      | true => exact wp.pure ⟨hw, trivial⟩
      | false =>
          have hleased : Keeps D K X (Queue.isLeased : P V Bool) :=
            Keeps.bind (h.sched _ hn) (fun _ => Keeps.pure _)
          apply wp.seq (hleased w hw)
          intro leased w hw
          cases leased with
          | true =>
              apply wp.seq (h.pollQueue hunwound hn turn w hw)
              intro result w hw
              cases result <;> exact wp.pure ⟨hw, trivial⟩
          | false =>
              apply wp.seq (h.sched .cursor hn w hw)
              intro start w hw
              exact h.pollLanes hunwound hidle hn hreport turn start hw

/-!
## Actor turns
-/

theorem actorTurn (h : Sound D n K X) (hn : 2 <= n)
    (hmail : A.mailbox ≠ none -> Sound D 6 K X ∧ Sound D 6 X X)
    (hidle : Idle D K) (hidle' : Idle D X) {T : ChildExit -> World V -> Prop} (hreport : Reporting D K T)
    (turn : TurnContext) {w : World V} (hw : K w) :
    wp D (Loac.actorTurn A turn) (fun r w => K w ∧ r.Reports T w) X w := by
  have hselect : wp D (Loac.select (.turn turn.expectedMode) () (pollOnce (Loac.pollTurn A turn)))
      (Splits (fun _ => K) (fun r w => K w ∧ r.Reports T w)) X w := by
    apply select (.turn turn.expectedMode) () (fun _ => hidle) (fun r => hreport.turn hidle r) hidle' _ hw
    intro _ w hw
    apply wp.seq (h.pollTurn hn hmail hidle hreport turn hw)
    intro r w hw
    cases r with
    | none => exact wp.pure hw.left
    | some turn => exact wp.pure hw
  apply wp.seq hselect
  intro r w hw
  cases r with
  | inl _ => exact wp.pure ⟨hw, trivial⟩
  | inr turn => exact wp.pure hw

end Sound

end Loac

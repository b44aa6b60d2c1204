import Loac.Idling.Discipline
import Loac.Exclusion.Polls

/-!
# Polls that leave something

A poll of the ready queue is pending only if it found a reply and took none
out.  As long as no test passes over what is left, a poll without progress
leaves something to wait for.
-/

namespace Loac

open Interleave Interleave.Prog

variable {V α β γ : Type} {A : ActorConfig} {goal : Mode} {w w' : World V}
  {key : Key} {late : Option Key} {turn : TurnContext} {X : World V -> Prop}

/-!
## Polling one reply
-/

/-- What a step of the reply's future does to the replies. -/
theorem Op.poll_items {input : Input V} {step : UserStep V}
    (hexec : (Op.user (.replyPoll key)).exec A input w = some (w', step)) :
    (exists value, step = .returns (some value) ∧
      w'.sched.items = w.sched.items.modify key fun scheduled =>
        { scheduled with returned := true }) ∨
    ((forall value, step ≠ .returns (some value)) ∧
      w'.sched.items = w.sched.items) := by
  have hschedules := Op.user_schedules hexec
  revert hschedules
  generalize w'.sched = sched'
  intro hschedules
  cases hschedules with
  | nothing step hreturns =>
      exact Or.inr ⟨fun value => hreturns key value rfl, rfl⟩
  | acquired other _ =>
      refine Or.inr ⟨?_, rfl⟩
      intro value heq
      cases heq
  | released other _ =>
      refine Or.inr ⟨?_, rfl⟩
      intro value heq
      cases heq
  | returned other value hsite =>
      cases hsite
      exact Or.inl ⟨value, rfl, rfl⟩

/-- What becomes of one reply says nothing about the others. -/
theorem InPoll.modify (h : InPoll goal key late w)
    (f : ScheduledFuture -> ScheduledFuture) {late' : Option Key}
    (hlate : forall w : World V, Awaiting late w -> Awaiting late' w)
    (hf : forall scheduled, (f scheduled).returned = scheduled.returned ∨
      late' = some key)
    (hback : Heading goal w' -> Heading goal w)
    (hitems : w'.sched.items = w.sched.items.modify key f) :
    InPoll goal key late' w' := by
  refine ⟨fun hheading => ?_, ?_⟩
  · exact (hlate w (h.mindful (hback hheading))).modify hf hitems
  · rw [hitems]
    exact member_modify h.member

theorem InPoll.poll_exec {input : Input V} {step : UserStep V}
    (hexec : (Op.user (.replyPoll key)).exec A input w = some (w', step))
    (h : InPoll goal key none w) :
    (forall value, step = .returns (some value) ->
      InPoll goal key (some key) w') ∧
    ((forall value, step ≠ .returns (some value)) ->
      InPoll goal key none w') := by
  have hback : Heading goal w' -> Heading goal w :=
    (Op.control_moves hexec).heading
  cases Op.poll_items hexec with
  | inl hreturned =>
      rcases hreturned with ⟨value, hstep, hitems⟩
      refine ⟨fun _ _ => ?_, fun hnever => absurd hstep (hnever value)⟩
      exact h.modify _ (fun _ hw => hw.weaken) (fun _ => Or.inr rfl) hback hitems
  | inr hpending =>
      refine ⟨fun value heq => absurd heq (hpending.left value), fun _ => ?_⟩
      exact InPoll.ofReplies key none w w' hpending.right hback h

theorem runPoll_inPoll (hw : InPoll goal key none w) :
    wp (idling V A goal) (runUser (.replyPoll key))
      (fun value => InPoll goal key (lateIf key value.isSome))
      (fun _ => True) w := by
  apply wp.rounds (fun _ => InPoll goal key none) hw
  intro _ w hw
  apply wp.bind
  apply wp.op (InPoll.ofReplies key none).stable hw
  intro w _ hw
  refine ⟨trivial, ?_⟩
  intro input w' step _ hexec _
  have hpolled := hw.poll_exec (machine_exec hexec)
  cases step with
  | continues => exact wp.again (hpolled.right (by simp))
  | panics => exact wp.throw trivial
  | returns value =>
      cases value with
      | none => exact wp.done (hpolled.right (by simp))
      | some value => exact wp.done (hpolled.left value rfl)

theorem takeReply_inPoll :
    Keeps (idling V A goal) (InPoll goal key late) X
      (sched (.takeReply key)) := by
  intro w hw
  apply wp.op (InPoll.ofReplies key late).stable hw
  intro w _ hw
  refine ⟨trivial, ?_⟩
  intro input w' reply _ hexec _
  rw [(Op.sched_result (machine_exec hexec)).left]
  show InPoll goal key late { w with sched := (w.sched.takeReply key).1 }
  unfold Sched.takeReply
  split
  · exact hw.modify (fun scheduled =>
      { scheduled with future := .completeReply none }) (fun _ => id)
      (fun _ => Or.inl rfl) id rfl
  · exact hw

theorem takeFinal_inPoll :
    Keeps (idling V A goal) (InPoll goal key late) X
      (sched (.takeFinal key)) := by
  intro w hw
  apply wp.op (InPoll.ofReplies key late).stable hw
  intro w _ hw
  refine ⟨trivial, ?_⟩
  intro input w' final _ hexec _
  rw [(Op.sched_result (machine_exec hexec)).left]
  show InPoll goal key late { w with sched := (w.sched.takeFinal key).1 }
  unfold Sched.takeFinal
  split
  · exact hw.modify (fun scheduled =>
      { scheduled with future := .finishStream false }) (fun _ => id)
      (fun _ => Or.inl rfl) id rfl
  · exact hw

theorem pollWithTask_inPoll (scheduled : ScheduledFuture)
    (hw : InPoll goal key none w) :
    wp (idling V A goal) (scheduled.pollWithTask key)
      (fun ready => InPoll goal key (lateIf key ready)) (fun _ => True) w := by
  have hpays : (repertoire V payingParts).Keeps (idling V A goal)
      (InPoll goal key (some key)) :=
    (InPoll.ofReplies key _).keepsParts rfl rfl
  have hregister : Keeps (idling V A goal) (InPoll goal key none)
      (fun _ => True) (sched (.register key)) :=
    (InPoll.ofReplies key none).perform _ rfl rfl
  apply wp.seq (hregister w hw)
  intro _ w hw
  cases scheduled.future with
  | completeReply reply =>
      apply wp.seq (runPoll_inPoll hw)
      intro value w hw
      cases value with
      | none => exact wp.pure hw
      | some value =>
          apply wp.seq (takeReply_inPoll w hw)
          intro taken w hw
          cases taken with
          | none => exact wp.throw trivial
          | some reply =>
              apply wp.seq (completeReply_keeps hpays reply _ w hw)
              intro _ w hw
              exact wp.pure hw
  | finishStream final =>
      apply wp.seq (runPoll_inPoll hw)
      intro value w hw
      cases value with
      | none => exact wp.pure hw
      | some value =>
          apply wp.seq (takeFinal_inPoll w hw)
          intro final w hw
          have hsend : (onlyIf final (callUser .finalSend) : P V Unit).Uses
              (repertoire V payingParts) :=
            Within.onlyIf (callUser_uses (repertoire_has.mono rfl))
          apply wp.seq (((hsend.keeps hpays).conseq (fun _ _ => trivial)) w hw)
          intro _ w hw
          exact wp.pure hw

/-!
## Taking out a finished reply
-/

/-- The operations that neither change the replies nor suspend a turn. -/
def distant (V : Type) : Vocabulary (Op V) where
  uses := fun op => op.handles = false ∧ op.sleeps = false
  gives := fun _ _ => True

theorem distant_keeps {P : World V -> Prop} (h : OfReplies goal P) :
    (distant V).Keeps (idling V A goal) P where
  stable := h.stable
  op := by
    intro β op hop w _ hw
    refine ⟨demands_awake hop.right, ?_⟩
    intro input w' b _ hexec _
    exact ⟨h.exec hop.left (machine_exec hexec) hw, trivial⟩

/-- Building or dropping a reply and answering its caller leaves the others. -/
theorem distant_has :
    Has (distant V) (.constructs :: .drops :: answerParts) := by
  intro α op hop
  cases op with
  | sched op => cases op <;> first
      | exact ⟨rfl, rfl⟩
      | cases hop
  | user site => cases site <;> first
      | exact ⟨rfl, rfl⟩
      | cases hop
  | suspend site => cases site <;> first
      | exact ⟨rfl, rfl⟩
      | cases hop
  | _ => exact ⟨rfl, rfl⟩

theorem Mindful.remove (h : Mindful goal (some key) w) :
    Mindful goal none { w with sched :=
      ((SchedOp.remove key).exec w.sched).1 } := by
  intro hheading other scheduled hget hreturned
  change (w.sched.items.remove key).get? other = some scheduled at hget
  rw [Slots.get?_remove] at hget
  by_cases heq : other = key
  · rw [if_pos heq] at hget
    cases hget
  · rw [if_neg heq] at hget
    cases h hheading other scheduled hget hreturned
    exact absurd rfl heq

theorem complete_mindful (hw : Mindful goal (some key) w) :
    wp (idling V A goal) (Queue.complete key)
      (fun _ => Mindful goal none) X w := by
  have hdistant : (distant V).Keeps (idling V A goal) (Mindful goal none) :=
    distant_keeps (Mindful.ofReplies none)
  have hremove : wp (idling V A goal) (Queue.remove key)
      (fun _ => Mindful goal none) X w := by
    apply wp.bind
    apply wp.op (Mindful.ofReplies (some key)).stable hw
    intro w _ hw
    refine ⟨trivial, ?_⟩
    intro input w' removed _ hexec _
    have hnow : Mindful goal none w' := by
      rw [(Op.sched_result (machine_exec hexec)).left]
      exact hw.remove
    cases removed with
    | none => exact wp.pure hnow
    | some scheduled =>
        have hfails : (repertoire V [.fails]).Keeps (idling V A goal)
            (Mindful goal none) :=
          (Mindful.ofReplies none).keepsParts rfl rfl
        have hdrop : (scheduled.drop key false : P V Unit).Uses (distant V) :=
          dropScheduled_uses (distant_has.mono rfl) key false scheduled
        exact dropUserValue_keeps (hdrop.keeps hdistant) hfails w' hnow
  apply wp.seq hremove
  intro _ w hw
  have hheld : Keeps (idling V A goal) (Mindful goal none) X (sched .held) :=
    (Mindful.ofReplies none).perform _ rfl rfl
  apply wp.seq (hheld w hw)
  intro held w hw
  have hrelease : Keeps (idling V A goal) (Mindful goal none) X
      (sched .forceRelease) := (Mindful.ofReplies none).perform _ rfl rfl
  exact Keeps.onlyIf hrelease w hw

/-!
## The ready queue
-/

/-- A mode test that finds a change passes over no reply that has returned. -/
theorem differs_mindful (expected : Mode) {P : World V -> Prop}
    (hP : OfReplies goal P) (hw : P w) :
    wp (idling V A goal) (differs expected)
      (fun differs w => P w ∧ (differs = true -> Mindful goal none w)) X w := by
  apply wp.op hP.stable hw
  intro w _ hw
  refine ⟨trivial, ?_⟩
  intro input w' differs hadmits hexec _
  cases hexec
  refine ⟨hw, fun hdiffers hheading => ?_⟩
  by_contra hneglected
  exact hadmits ⟨hheading, of_decide_eq_true hdiffers, hneglected⟩

def ReplyPoll.Engages (goal : Mode) (turn : TurnContext) :
    ReplyPoll -> World V -> Prop
  | .progress => Mindful goal none
  | _ => Engaged goal turn

theorem pollLeased_engages (turn : TurnContext) (hw : Mindful goal none w) :
    wp (idling V A goal) (Queue.pollLeased turn key)
      (ReplyPoll.Engages goal turn) (fun _ => True) w := by
  apply wp.bind
  apply wp.op (Mindful.ofReplies none).stable hw
  intro w _ hw
  refine ⟨trivial, ?_⟩
  intro input w' found _ hexec _
  rcases Op.sched_result (machine_exec hexec) with ⟨hworld, hfound⟩
  change w.sched.items.get? key = found at hfound
  subst hworld
  cases found with
  | none =>
      have hrelease : Keeps (idling V A goal) (Mindful goal none)
          (fun _ => True) (sched .forceRelease) :=
        (Mindful.ofReplies none).perform _ rfl rfl
      apply wp.seq (hrelease _ hw)
      intro _ w hw
      exact wp.pure hw
  | some scheduled =>
      have hmember : InPoll goal key none w := by
        refine ⟨hw, ?_⟩
        rw [hfound]
        exact Option.some_ne_none scheduled
      have htakes : Keeps (idling V A goal) (InPoll goal key none)
          (fun _ => True) (sched (.takeReady key)) :=
        (InPoll.ofReplies key none).perform _ rfl rfl
      apply wp.seq (htakes _ hmember)
      intro ready w hw
      cases ready with
      | false => exact wp.pure (hw.filled.engaged turn)
      | true =>
          apply wp.seq (pollWithTask_inPoll scheduled hw)
          intro ready w hw
          have hlooks : Keeps (idling V A goal)
              (InPoll goal key (lateIf key ready)) (fun _ => True)
              (sched .held) := (InPoll.ofReplies key _).perform _ rfl rfl
          apply wp.seq (hlooks w hw)
          intro held w hw
          apply wp.seq (differs_mindful turn.expectedMode
            (InPoll.ofReplies key _) hw)
          intro differs w hw
          cases differs with
          | true => exact wp.pure (hw.right rfl)
          | false =>
              cases ready with
              | true =>
                  apply wp.seq (complete_mindful hw.left.mindful)
                  intro _ w hw
                  exact wp.pure hw
              | false =>
                  have hfilled : Filled goal w := hw.left.filled
                  by_cases hheld : held = some key
                  · simp only [if_pos hheld]
                    exact wp.pure (hfilled.engaged turn)
                  · simp only [if_neg hheld]
                    exact wp.pure hfilled.left

/-- What is left in a drain, depending on whether a reply completed. -/
def Surviving (goal : Mode) (turn : TurnContext) (completed : Bool)
    (w : World V) : Prop :=
  Mindful goal none w ∧ (completed = false -> Engaged goal turn w)

theorem Surviving.ofWork (turn : TurnContext) (completed : Bool) :
    OfWork (V := V) goal (Surviving goal turn completed) := by
  intro w w' hitems hback hqueue h
  exact ⟨Mindful.ofReplies none w w' hitems hback h.left,
    fun hnone => Engaged.ofWork turn w w' hitems hback hqueue (h.right hnone)⟩

def DrainEngages (goal : Mode) (turn : TurnContext) :
    Option Bool -> World V -> Prop
  | none => Engaged goal turn
  | some completed => Surviving goal turn completed

theorem drainRound_engages (turn : TurnContext) (polled : Nat)
    (completed : Bool) (scheduled : ScheduledFuture)
    (hw : InPoll goal key none w) :
    wp (idling V A goal) (do
        let ready ← scheduled.pollWithTask key
        if ready then
          Queue.complete key
          again (polled + 1, true)
        else if (← sched .held).isSome then
          done none
        else
          again (polled + 1, completed) :
        P V ((Nat × Bool) ⊕ Option Bool))
      (Splits (fun state => Surviving goal turn state.2)
        (DrainEngages goal turn)) (fun _ => True) w := by
  apply wp.seq (pollWithTask_inPoll scheduled hw)
  intro ready w hw
  cases ready with
  | true =>
      apply wp.seq (complete_mindful hw.mindful)
      intro _ w hw
      exact wp.again ⟨hw, fun hnone => by cases hnone⟩
  | false =>
      have hheld : Keeps (idling V A goal) (InPoll goal key none)
          (fun _ => True) (sched .held) :=
        (InPoll.ofReplies key none).perform _ rfl rfl
      apply wp.seq (hheld w hw)
      intro held w hw
      have hengaged : Engaged goal turn w := hw.filled.engaged turn
      cases held with
      | some holder => exact wp.done hengaged
      | none => exact wp.again ⟨hengaged.mindful, fun _ => hengaged⟩

theorem drain_engages (turn : TurnContext) (hw : Engaged goal turn w) :
    wp (idling V A goal) (Queue.drain turn) (DrainEngages goal turn)
      (fun _ => True) w := by
  apply wp.rounds (fun state => Surviving goal turn state.2)
    ⟨hw.mindful, fun _ => hw⟩
  intro state w hw
  rcases state with ⟨polled, completed⟩
  change Surviving goal turn completed w at hw
  have hop : forall {α : Type} (op : Op V α), op.handles = false ->
      op.sleeps = false -> op.unqueues = false ->
        Keeps (idling V A goal) (Surviving goal turn completed)
          (fun _ => True) (perform op) :=
    fun op => (Surviving.ofWork turn completed).perform op
  by_cases hbudget : polled < activePollBudget
  · simp only [if_pos hbudget]
    apply wp.seq (hop (.differs turn.expectedMode) rfl rfl rfl w hw)
    intro differs w hw
    cases differs with
    | true => exact wp.done hw
    | false =>
        apply wp.seq (hop (.sched .popReady) rfl rfl rfl w hw)
        intro popped w hw
        cases popped with
        | none => exact wp.done hw
        | some key =>
            apply wp.bind
            apply wp.op (Surviving.ofWork turn completed).stable hw
            intro w _ hw
            refine ⟨trivial, ?_⟩
            intro input w' found _ hexec _
            rcases Op.sched_result (machine_exec hexec) with ⟨hworld, hfound⟩
            change w.sched.items.get? key = found at hfound
            subst hworld
            cases found with
            | none => exact wp.again hw
            | some scheduled =>
                have hmember : InPoll goal key none w := by
                  refine ⟨hw.left, ?_⟩
                  rw [hfound]
                  exact Option.some_ne_none scheduled
                have hboth : OfWork (V := V) goal (fun w =>
                    Surviving goal turn completed w ∧
                      InPoll goal key none w) := by
                  intro w w' hitems hback hqueue h
                  exact ⟨Surviving.ofWork turn completed w w' hitems hback
                    hqueue h.left,
                    InPoll.ofReplies key none w w' hitems hback h.right⟩
                have htakes : Keeps (idling V A goal) (fun w =>
                    Surviving goal turn completed w ∧
                      InPoll goal key none w)
                    (fun _ => True) (sched (.takeReady key)) :=
                  hboth.perform _ rfl rfl rfl
                apply wp.seq (htakes w ⟨hw, hmember⟩)
                intro ready w hw
                cases ready with
                | false => exact wp.again hw.left
                | true =>
                    exact drainRound_engages turn polled completed scheduled
                      hw.right
  · simp only [if_neg hbudget]
    exact wp.done hw

/-- A test for ready keys that finds some is made while something is left. -/
theorem readyIsEmpty_engages {completed : Bool}
    (hw : Surviving goal turn completed w) :
    wp (idling V A goal) (sched (.readyIsEmpty turn))
      (fun empty w => Surviving goal turn completed w ∧
        (empty = false -> Engaged goal turn w)) X w := by
  apply wp.op (Surviving.ofWork turn completed).stable hw
  intro w _ hw
  refine ⟨trivial, ?_⟩
  intro input w' empty hadmits hexec _
  rcases Op.sched_result (machine_exec hexec) with ⟨hworld, hempty⟩
  change w.sched.ready.isEmpty = empty at hempty
  subst hworld
  refine ⟨hw, fun hkeys hheading => ⟨hw.left hheading, fun hgoal => ?_⟩⟩
  by_contra hidle
  apply hadmits
  refine ⟨hheading, hgoal, hidle, ?_⟩
  intro hnone
  rw [hnone] at hempty
  rw [hkeys] at hempty
  cases hempty

theorem pollReady_engages (turn : TurnContext) (hw : Engaged goal turn w) :
    wp (idling V A goal) (Queue.pollReady turn) (ReplyPoll.Engages goal turn)
      (fun _ => True) w := by
  apply wp.seq (drain_engages turn hw)
  intro completed w hw
  cases completed with
  | none => exact wp.pure hw
  | some completed =>
      change Surviving goal turn completed w at hw
      have hdiffers : Keeps (idling V A goal) (Surviving goal turn completed)
          (fun _ => True) (differs turn.expectedMode) :=
        (Surviving.ofWork turn completed).perform _ rfl rfl rfl
      apply wp.seq (hdiffers w hw)
      intro differs w hw
      cases differs with
      | true => exact wp.pure hw.left
      | false =>
          apply wp.seq (readyIsEmpty_engages hw)
          intro empty w hw
          cases empty with
          | true =>
              cases completed with
              | true => exact wp.pure hw.left.left
              | false => exact wp.pure (hw.left.right rfl)
          | false =>
              have hwakes : Keeps (idling V A goal) (Engaged goal turn)
                  (fun _ => True) (perform .wakeTask) :=
                (Engaged.ofWork turn).perform _ rfl rfl rfl
              apply wp.seq (hwakes w (hw.right rfl))
              intro _ w hw
              exact wp.pure hw

theorem poll_engages (turn : TurnContext) (hw : Engaged goal turn w) :
    wp (idling V A goal) (Queue.poll turn) (ReplyPoll.Engages goal turn)
      (fun _ => True) w := by
  have hheld : Keeps (idling V A goal) (Engaged goal turn) (fun _ => True)
      (sched .held) := (Engaged.ofWork turn).perform _ rfl rfl rfl
  apply wp.seq (hheld w hw)
  intro held w hw
  cases held with
  | none => exact pollReady_engages turn hw
  | some key => exact pollLeased_engages turn hw.mindful

/-!
## Scheduling
-/

theorem schedule_mindful {build : Key -> P V ReplyFuture}
    (hbuild : forall key, Keeps (idling V A goal) (Mindful goal none)
      (fun _ => True) (build key)) :
    Keeps (idling V A goal) (Mindful goal none) (fun _ => True)
      (Queue.schedule build) := by
  intro w hw
  have hreserve : Keeps (idling V A goal) (Mindful goal none) (fun _ => True)
      (sched .reserve) := by
    intro w hw
    apply wp.op (Mindful.ofReplies none).stable hw
    intro w _ hw
    refine ⟨trivial, ?_⟩
    intro input w' key _ hexec _
    rw [(Op.sched_result (machine_exec hexec)).left]
    intro hheading other scheduled hget hreturned
    change w.sched.items.reserve.get? other = some scheduled at hget
    rw [Slots.get?_reserve] at hget
    exact hw hheading other scheduled hget hreturned
  apply wp.seq (hreserve w hw)
  intro key w hw
  apply wp.seq (hbuild key w hw)
  intro future w hw
  have hmark : Keeps (idling V A goal) (Mindful goal none) (fun _ => True)
      (sched (.markReady key)) := (Mindful.ofReplies none).perform _ rfl rfl
  apply wp.seq (hmark w hw)
  intro _ w hw
  apply wp.op (Mindful.ofReplies none).stable hw
  intro w _ hw
  refine ⟨trivial, ?_⟩
  intro input w' _ _ hexec _
  rw [(Op.sched_result (machine_exec hexec)).left]
  intro hheading other scheduled hget hreturned
  change (w.sched.items.place key _).get? other = some scheduled at hget
  cases Slots.get?_place_some hget with
  | inl hbefore => exact hw hheading other scheduled hbefore hreturned
  | inr hplaced =>
      rw [hplaced.right] at hreturned
      cases hreturned

theorem dispatch_mindful (envelope : Envelope) :
    Keeps (idling V A goal) (Mindful goal none) (fun _ => True)
      (envelope.dispatch : P V Unit) := by
  have hdistant : (distant V).Keeps (idling V A goal) (Mindful goal none) :=
    distant_keeps (Mindful.ofReplies none)
  have hconstruct : forall key, Keeps (idling V A goal) (Mindful goal none)
      (Mindful goal none) (callUser (.construct key)) := by
    intro key
    have huses : (callUser (.construct key) : P V Unit).Uses (distant V) :=
      callUser_uses (distant_has.mono rfl)
    exact huses.keeps hdistant
  have hmindful : Dispatching (V := V) (idling V A goal) (Mindful goal none)
      (Mindful goal none) (fun _ => True) := {
    falls := fun _ _ => trivial
    settles := fun _ hw => hw
    decides := (Mindful.ofReplies none).keepsParts rfl rfl
    single := by
      intro reply
      apply schedule_mindful
      intro key
      refine Keeps.bind (attempt_keeps (hconstruct key)) fun built => ?_
      cases built with
      | some _ => exact Keeps.pure _
      | none =>
          have hanswers : (repertoire V answerParts).Keeps (idling V A goal)
              (Mindful goal none) := (Mindful.ofReplies none).keepsParts rfl rfl
          exact Keeps.bind (dropReply_keeps hanswers reply)
            (fun _ => Keeps.throw (fun _ _ => trivial))
    stream := by
      intro reply
      have hpays : (repertoire V payingParts).Keeps (idling V A goal)
          (Mindful goal none) := (Mindful.ofReplies none).keepsParts rfl rfl
      refine Keeps.bind (completeReply_keeps hpays reply none) fun _ => ?_
      apply schedule_mindful
      intro key
      exact Keeps.bind ((hconstruct key).conseq (fun _ _ => trivial))
        (fun _ => Keeps.pure _) }
  intro w hw
  exact hmindful.dispatch envelope hw

end Loac

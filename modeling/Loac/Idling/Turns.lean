import Loac.Bypass.Trace
import Loac.Idling.Polls

/-!
# Turns that leave something

A turn visits its lanes as long as they have nothing.  What it began with is
still there when it is suspended, unless an envelope was received in between:
then the inbox is asked again, and answers.  An inbox that refuses for lack of
budget wakes the task.  The turn is then polled again, and it comes to the inbox
again, because no lane before it has anything either.
-/

namespace Loac

open Interleave Interleave.Prog

variable {V α β γ : Type} {A : ActorConfig} {goal : Mode} {w w' : World V}
  {turn : TurnContext} {start lane : ReplyLane} {X : World V -> Prop}

/-!
## Excuses
-/

abbrev Expecting (A : ActorConfig) (goal : Mode) (turn : TurnContext) :
    World V -> Prop :=
  Attends A goal turn fun _ => True

abbrev Restless (A : ActorConfig) (goal : Mode) (turn : TurnContext) :
    World V -> Prop :=
  Attends A goal turn fun w => w.task = true

/--
What excuses a turn on its way: no lease keeps it from the inbox that is still
to be visited, or the inbox was visited, and the task is woken.
-/
def OnTheWay (start : ReplyLane) (n : Nat) (w : World V) : Prop :=
  if n <= start.distance .mailbox then w.sched.lease = none
  else w.task = true

abbrev Touring (A : ActorConfig) (goal : Mode) (turn : TurnContext)
    (start : ReplyLane) (n : Nat) : World V -> Prop :=
  Attends A goal turn (OnTheWay start n)

theorem Expecting.ofWork :
    OfWork (V := V) goal (Expecting A goal turn) := by
  intro w w' hitems hback hqueue h hheading
  have hbefore := h (hback hheading)
  refine ⟨Mindful.ofReplies none w w' hitems hback h.mindful hheading,
    fun hgoal => ?_⟩
  rcases hbefore.right hgoal with (hreplies | hwaits) | hexcused
  · left
    left
    rw [hitems]
    exact hreplies
  · exact Or.inl (Or.inr ⟨hwaits.left, hqueue hwaits.right⟩)
  · exact Or.inr hexcused

theorem Restless.ofTurn :
    OfTurn (V := V) goal (Restless A goal turn) :=
  Attends.ofTurn A turn fun _ _ _ htask => htask

theorem Touring.ofTurn (n : Nat) :
    OfTurn (V := V) goal (Touring A goal turn start n) := by
  apply Attends.ofTurn
  intro w w' hlease htask h
  unfold OnTheWay at h ⊢
  split at h
  · rename_i hbefore
    rw [if_pos hbefore, hlease]
    exact h
  · rename_i hafter
    rw [if_neg hafter]
    exact htask h

/-- Another lane than the one of the inbox changes no excuse. -/
theorem Touring.next (h : Touring A goal turn start (start.distance lane) w)
    (hother : lane ≠ .mailbox) :
    Touring A goal turn start (start.distance lane + 1) w := by
  apply h.mono
  intro _ hexcused
  unfold OnTheWay at hexcused ⊢
  have hne : start.distance lane ≠ start.distance .mailbox :=
    fun heq => hother (ReplyLane.eq_of_distance heq)
  split at hexcused
  · rename_i hbefore
    rw [if_pos (by omega)]
    exact hexcused
  · rename_i hafter
    rw [if_neg (by omega)]
    exact hexcused

theorem Restless.touring (h : Restless A goal turn w) {n : Nat}
    (hafter : start.distance .mailbox < n) :
    Touring A goal turn start n w := by
  apply h.mono
  intro _ htask
  unfold OnTheWay
  rw [if_neg (by omega)]
  exact htask

theorem Touring.restless {n : Nat} (h : Touring A goal turn start n w)
    (hafter : start.distance .mailbox < n) : Restless A goal turn w := by
  apply h.mono
  intro _ hexcused
  unfold OnTheWay at hexcused
  rw [if_neg (by omega)] at hexcused
  exact hexcused

/-!
## Reading
-/

/-- What is found where the scheduler is asked whether it has replies. -/
theorem isEmpty_filled {P : World V -> Prop} (hP : (idling V A goal).Stable P)
    (hmindful : forall w, P w -> Mindful goal none w) (hw : P w) :
    wp (idling V A goal) (sched .isEmpty)
      (fun empty w => P w ∧ (empty = false -> Filled goal w)) X w := by
  apply wp.mono _ (fun _ hX => hX) (idling_reads hP .isEmpty (fun _ => rfl) hw)
  intro empty w hw
  exact ⟨hw.left, fun hsome => ⟨hmindful w hw.left, hw.right.symm.trans hsome⟩⟩

theorem hasReplies_filled {P : World V -> Prop}
    (hP : (idling V A goal).Stable P)
    (hmindful : forall w, P w -> Mindful goal none w) (hw : P w) :
    wp (idling V A goal) hasReplies
      (fun replies w => P w ∧ (replies = true -> Filled goal w)) X w := by
  apply wp.seq (isEmpty_filled hP hmindful hw)
  intro empty w hw
  exact wp.pure ⟨hw.left, fun hsome => hw.right (by simpa using hsome)⟩

theorem isLeased_tells {P : World V -> Prop} (hP : (idling V A goal).Stable P)
    (hw : P w) :
    wp (idling V A goal) Queue.isLeased
      (fun leased w => P w ∧ leased = w.sched.lease.isSome) X w := by
  apply wp.seq (idling_reads hP .held (fun _ => rfl) hw)
  intro held w hw
  exact wp.pure ⟨hw.left, congrArg Option.isSome hw.right⟩

theorem leased_stable (leased : Bool) :
    (idling V A goal).Stable fun w => leased = w.sched.lease.isSome := by
  intro e w w' _ _ henv hw
  rw [EnvAct.lease_exec henv]
  exact hw

theorem hasDispatchCapacity_filled {P : World V -> Prop}
    (hP : (idling V A goal).Stable P) (hw : P w) :
    wp (idling V A goal) (hasDispatchCapacity A)
      (fun capacity w => P w ∧ (capacity = false -> w.sched.lease = none ->
        w.sched.items.isEmpty = false)) X w := by
  apply wp.seq (isLeased_tells hP hw)
  intro leased w hw
  apply wp.seq (idling_reads (hP.and (leased_stable leased)) .length
    (fun _ => rfl) hw)
  intro active w hw
  refine wp.pure ⟨hw.left.left, fun hcapacity hfree => ?_⟩
  rw [hw.left.right, hfree, hw.right] at hcapacity
  change hasCapacity A w.sched.items.length = false at hcapacity
  cases hempty : w.sched.items.isEmpty with
  | false => rfl
  | true =>
      rw [Slots.length_eq_zero_iff.mpr hempty] at hcapacity
      unfold hasCapacity at hcapacity
      split at hcapacity
      · rename_i limit hlimit
        exact absurd (A.limitPositive limit hlimit)
          (of_decide_eq_false hcapacity)
      · cases hcapacity

/-!
## Lanes
-/

/-- What a poll of replies leaves: the wait for something, or what it found. -/
def PollEngages (goal : Mode) (turn : TurnContext) :
    Poll γ -> World V -> Prop
  | none => Engaged goal turn
  | some _ => Mindful goal none

def PollAttends (A : ActorConfig) (goal : Mode) (turn : TurnContext) :
    Poll γ -> World V -> Prop
  | none => Restless A goal turn
  | some _ => Mindful goal none

def Visit.Attends (A : ActorConfig) (goal : Mode) (turn : TurnContext)
    (start lane : ReplyLane) : Visit -> World V -> Prop
  | .nothing => Touring A goal turn start (start.distance lane + 1)
  | .selected _ => Mindful goal none
  | .leave result => PollAttends A goal turn result

theorem PollEngages.attends {result : Poll γ}
    (h : PollEngages goal turn result w) : PollAttends A goal turn result w := by
  cases result with
  | none =>
      have hengaged : Engaged goal turn w := h
      have hrestless : Restless A goal turn w := hengaged.attends
      exact hrestless
  | some c => exact h

theorem mindful_op (op : Op V α) (hop : op.handles = false)
    (hsleeps : op.sleeps = false) :
    Keeps (idling V A goal) (Mindful goal none) X (perform op) :=
  (Mindful.ofReplies none).perform op hop hsleeps

theorem engaged_op (op : Op V α) (hop : op.handles = false)
    (hsleeps : op.sleeps = false) (hqueue : op.unqueues = false) :
    Keeps (idling V A goal) (Engaged goal turn) X (perform op) :=
  (Engaged.ofWork turn).perform op hop hsleeps hqueue

theorem mindful_looks {p : P V α} (hp : p.Uses (repertoire V [.looks])) :
    Keeps (idling V A goal) (Mindful goal none) (fun _ => True) p := by
  have hlooks : (repertoire V [.looks]).Keeps (idling V A goal)
      (Mindful goal none) := (Mindful.ofReplies none).keepsParts rfl rfl
  exact (hp.keeps hlooks).conseq (fun _ _ => trivial)

/--
An inbox that is pending leaves something or wakes the task, or the turn is
forgetful.
-/
theorem pollRecv_attends (hreceives : AsksInbox A turn)
    (hw : Mindful goal none w) :
    wp (idling V A goal) (mail (.pollRecv turn))
      (fun received w => Mindful goal none w ∧
        (received = .pending -> Restless A goal turn w)) X w := by
  apply wp.op (Mindful.ofReplies none).stable hw
  intro w _ hw
  refine ⟨trivial, ?_⟩
  intro input w' received hadmits hexec _
  have hexec := machine_exec hexec
  have hnow : Mindful goal none w' :=
    (Mindful.ofReplies none).exec rfl hexec hw
  refine ⟨hnow, fun hpending hheading => ⟨hnow hheading, fun hgoal => ?_⟩⟩
  have hbefore := (Op.control_moves hexec).heading hheading
  cases hexec
  change (w.mail.pollRecv _ _).2 = .pending at hpending
  by_cases hrefused : input.reception = .refused
  · refine Or.inr ⟨hreceives, ?_⟩
    show (decide (input.reception = .refused) || w.task) = true
    rw [decide_eq_true hrefused]
    rfl
  · left
    by_contra hidle
    have hregistered := Mail.pollRecv_registers hrefused hpending
    refine hadmits ⟨hbefore, hgoal, ?_, hregistered.right.left, hrefused,
      hregistered.right.right⟩
    intro hbusy
    cases hbusy with
    | inl hreplies => exact hidle (Or.inl hreplies)
    | inr hwaits => exact hwaits.right hregistered.right.left

theorem mailboxLane_attends (start : ReplyLane) (hreceives : AsksInbox A turn)
    (hw : Mindful goal none w) :
    wp (idling V A goal) (mailboxLane A turn start)
      (Visit.Attends A goal turn start .mailbox) (fun _ => True) w := by
  apply wp.rounds (fun _ => Mindful goal none) hw
  intro dispatched w hw
  apply wp.seq (pollRecv_attends hreceives hw)
  intro received w hw
  cases received with
  | envelope envelope =>
      apply wp.seq (dispatch_mindful envelope w hw.left)
      intro _ w hw
      apply wp.seq (mindful_op (.differs turn.expectedMode) rfl rfl w hw)
      intro differs w hw
      cases differs with
      | true =>
          apply wp.seq (mindful_op (.sched (.setCursor _)) rfl rfl w hw)
          intro _ w hw
          exact wp.done hw
      | false =>
          by_cases hbudget : dispatched + 1 = A.mailboxDispatchBudget
          · simp only [if_pos hbudget]
            exact wp.done hw
          · simp only [if_neg hbudget]
            apply wp.seq (mindful_looks
              (hasDispatchCapacity_uses (repertoire_has.mono rfl)) w hw)
            intro capacity w hw
            cases capacity with
            | true => exact wp.again hw
            | false => exact wp.done hw
  | closed => exact wp.done hw.left
  | pending =>
      have hrestless := hw.right rfl
      by_cases hstart : dispatched > 0 ∧ start = .reply
      · simp only [if_pos hstart]
        apply wp.seq (hasReplies_filled Restless.ofTurn.stable
          (fun _ hw => hw.mindful) hrestless)
        intro replies w hw
        cases replies with
        | true => exact wp.done hw.left.mindful
        | false => exact wp.done (hw.left.touring (Nat.lt_succ_self _))
      · simp only [if_neg hstart]
        exact wp.done (hrestless.touring (Nat.lt_succ_self _))

theorem replyLane_attends (hw : Engaged goal turn w) :
    wp (idling V A goal) (replyLane turn)
      (Visit.Attends A goal turn start .reply) (fun _ => True) w := by
  apply wp.seq (poll_engages turn hw)
  intro result w hw
  cases result with
  | pending =>
      have hengaged : Engaged goal turn w := hw
      exact wp.pure hengaged.attends
  | progress => exact wp.pure hw
  | leased =>
      have hleft : PollEngages (γ := SchedulerTurn) goal turn none w := hw
      exact wp.pure hleft.attends
  | budgetExhausted =>
      apply wp.seq (engaged_op (.sched (.setCursor ReplyLane.reply.next))
        rfl rfl rfl w hw)
      intro _ w hw
      have hleft : PollEngages (γ := SchedulerTurn) goal turn none w := hw
      exact wp.pure hleft.attends

theorem pollChild_ofTurn {K : World V -> Prop} (hK : OfTurn goal K) :
    Keeps (idling V A goal) K X (pollChild : P V (Poll SchedulerTurn)) := by
  intro w hw
  apply wp.seq (hK.perform (.kin .pollExit) rfl rfl rfl rfl w hw)
  intro event w hw
  cases event with
  | none => exact wp.pure hw
  | some event => exact wp.pure hw

theorem visit_attends (hmailbox : A.mailbox ≠ none)
    (hw : Touring A goal turn start (start.distance lane) w) :
    wp (idling V A goal) (visit A turn start lane)
      (Visit.Attends A goal turn start lane) (fun _ => True) w := by
  cases lane with
  | mailbox =>
      apply wp.seq (hasDispatchCapacity_filled (Touring.ofTurn _).stable hw)
      intro capacity w hw
      by_cases hreceive : (turn.receiveMessages && capacity) = true
      · simp only [if_pos hreceive]
        exact mailboxLane_attends start
          ⟨(Bool.and_eq_true_iff.mp hreceive).left, hmailbox⟩ hw.left.mindful
      · simp only [if_neg hreceive]
        refine wp.pure (Engaged.attends (hw.left.engaged ?_))
        intro hreceives hexcused
        unfold OnTheWay at hexcused
        rw [if_pos (Nat.le_refl _)] at hexcused
        left
        apply hw.right _ hexcused
        simpa [hreceives.left] using hreceive
  | reply =>
      apply wp.seq (hasReplies_filled (Touring.ofTurn _).stable
        (fun _ hw => hw.mindful) hw)
      intro replies w hw
      cases replies with
      | true => exact replyLane_attends ((hw.right rfl).engaged turn)
      | false => exact wp.pure (hw.left.next (by decide))
  | childExit =>
      apply wp.seq (pollChild_ofTurn (Touring.ofTurn _) w hw)
      intro result w hw
      cases result with
      | none => exact wp.pure (hw.next (by decide))
      | some result => exact wp.pure hw.mindful

/-!
## Turns
-/

theorem pollLanes_attends (hmailbox : A.mailbox ≠ none)
    (hw : Touring A goal turn start 0 w) :
    wp (idling V A goal) (pollLanes A turn start) (PollAttends A goal turn)
      (fun _ => True) w := by
  apply wp.rounds (fun lane => Touring A goal turn start (start.distance lane))
  · rw [ReplyLane.distance_self]
    exact hw
  intro lane w hw
  apply wp.seq ((Touring.ofTurn _).perform (.differs turn.expectedMode)
    rfl rfl rfl rfl w hw)
  intro differs w hw
  cases differs with
  | true => exact wp.done hw.mindful
  | false =>
      apply wp.seq (visit_attends hmailbox hw)
      intro visit w hw
      cases visit with
      | leave result => exact wp.done hw
      | selected selected =>
          apply wp.seq (mindful_op (.sched (.setCursor _)) rfl rfl w hw)
          intro _ w hw
          exact wp.done hw
      | nothing =>
          change Touring A goal turn start (start.distance lane + 1) w at hw
          rcases ReplyLane.distance_next start lane with
            ⟨hlast, hdistance⟩ | ⟨hlater, hdistance⟩
          · simp only [if_pos hlast]
            rw [hdistance] at hw
            apply wp.seq ((Touring.ofTurn _).perform (.sched (.setCursor _))
              rfl rfl rfl rfl w hw)
            intro _ w hw
            exact wp.done (hw.restless
              (Nat.lt_succ_of_le (ReplyLane.distance_le_two start .mailbox)))
          · simp only [if_neg hlater]
            rw [← hdistance] at hw
            exact wp.again hw

theorem pollTurn_attends (hw : Expecting A goal turn w) :
    wp (idling V A goal) (pollTurn A turn) (PollAttends A goal turn)
      (fun _ => True) w := by
  unfold pollTurn
  cases hmailbox : A.mailbox with
  | none =>
      have hengaged : Engaged goal turn w :=
        hw.engaged fun hreceives => absurd hmailbox hreceives.right
      apply wp.seq (engaged_op (.differs turn.expectedMode) rfl rfl rfl w
        hengaged)
      intro differs w hw
      cases differs with
      | true => exact wp.pure hw.mindful
      | false =>
          have hkept : OfTurn (V := V) goal (Engaged goal turn) :=
            fun w w' hitems hback hqueue _ _ =>
              Engaged.ofWork turn w w' hitems hback hqueue
          apply wp.mono _ (fun _ hX => hX) (pollChild_ofTurn hkept w hw)
          intro result w hw
          cases result with
          | none =>
              have hrestless : Restless A goal turn w := hw.attends
              exact hrestless
          | some result => exact hw.mindful
  | some _ =>
      have hsome : A.mailbox ≠ none := by
        rw [hmailbox]
        exact Option.some_ne_none _
      apply wp.seq (Expecting.ofWork.perform (.differs turn.expectedMode)
        rfl rfl rfl w hw)
      intro differs w hw
      cases differs with
      | true => exact wp.pure hw.mindful
      | false =>
          apply wp.seq (isLeased_tells Expecting.ofWork.stable hw)
          intro leased w hw
          cases leased with
          | true =>
              have hpoll : wp (idling V A goal) (Queue.poll turn)
                  (ReplyPoll.Engages goal turn) (fun _ => True) w := by
                apply wp.seq (idling_reads (Expecting.ofWork.stable.and
                  (leased_stable true)) .held (fun _ => rfl) hw)
                intro held w hw
                cases held with
                | none =>
                    have hheld := hw.left.right
                    rw [show w.sched.lease = none from hw.right.symm] at hheld
                    cases hheld
                | some key => exact pollLeased_engages turn hw.left.left.mindful
              apply wp.seq hpoll
              intro result w hw
              cases result with
              | progress => exact wp.pure hw
              | _ =>
                  have hleft : PollEngages (γ := SchedulerTurn) goal turn none w :=
                    hw
                  exact wp.pure hleft.attends
          | false =>
              apply wp.seq (idling_reads (Expecting.ofWork.stable.and
                (leased_stable false)) .cursor (fun _ => rfl) hw)
              intro start w hw
              apply pollLanes_attends hsome
              apply hw.left.left.mono
              intro _ _
              unfold OnTheWay
              rw [if_pos (Nat.zero_le _)]
              exact Option.isNone_iff_eq_none.mp
                (Option.isSome_eq_false_iff.mp hw.left.right.symm)

theorem pollActorReplies_engages (hw : Engaged goal turn w) :
    wp (idling V A goal) (pollActorReplies A turn) (PollEngages goal turn)
      (fun _ => True) w := by
  unfold pollActorReplies
  cases A.mailbox with
  | none => exact wp.pure hw
  | some _ =>
      apply wp.seq (poll_engages turn hw)
      intro result w hw
      cases result <;> exact wp.pure hw

/--
The wait in a turn is suspended while something is left, or it comes to the
inbox again.
-/
theorem select_attends {site : Site} (hsite : site.turns = some turn.expectedMode)
    (hreceives : AsksInbox A turn -> site ≠ .finishReplies)
    {poll : P V (Poll γ)}
    (hpoll : forall w, Expecting A goal turn w ->
      wp (idling V A goal) poll (PollAttends A goal turn) (fun _ => True) w)
    (hw : Expecting A goal turn w) :
    wp (idling V A goal) (select site () (pollOnce poll))
      (fun _ => Mindful goal none) (fun _ => True) w := by
  apply wp.onExit
  apply wp.mono (Q := fun _ => Mindful goal none) (X := fun _ => True)
  · exact fun _ => mindful_op .dropNotified rfl rfl
  · intro w _
    have hdrops : (perform .dropNotified : P V Unit).Uses
        (awake V [.notified]) := awake_has.perform rfl rfl
    exact hdrops.keeps idling_loose w trivial
  · apply wp.rounds (fun _ => Expecting A goal turn) hw
    intro _ w hw
    apply wp.seq (Expecting.ofWork.perform .pollNotified rfl rfl rfl w hw)
    intro notified w hw
    cases notified with
    | true => exact wp.done hw.mindful
    | false =>
        apply wp.bind
        apply wp.seq (hpoll w hw)
        intro r w hw
        cases r with
        | some c => exact wp.pure (wp.done hw)
        | none =>
            apply wp.pure
            have hrestless : Restless A goal turn w := hw
            apply wp.seq (R := fun _ => Expecting A goal turn)
            · apply wp.op Restless.ofTurn.stable hrestless
              intro w _ hw
              refine ⟨?_, ?_⟩
              · intro hturns hheading
                rw [hsite] at hturns
                have hbusy := hw hheading
                refine ⟨hbusy.left, ?_⟩
                exact (hbusy.right (Option.some.inj hturns)).imp_right
                  fun hexcused => ⟨hreceives hexcused.left, hexcused.right⟩
              · intro input w' _ _ hexec _
                exact Expecting.ofWork.exec rfl rfl (machine_exec hexec)
                  (hw.mono fun _ _ => trivial)
            · intro _ w hw
              exact wp.again hw

theorem actorTurn_attends (hw : Expecting A goal turn w) :
    wp (idling V A goal) (actorTurn A turn) (fun _ => Mindful goal none)
      (fun _ => True) w := by
  apply wp.seq (select_attends rfl (fun _ => Site.noConfusion)
    (fun _ => pollTurn_attends) hw)
  intro r w hw
  cases r <;> exact wp.pure hw

/-- What is found where the scheduler is asked whether it is idle. -/
theorem isIdle_filled {K : World V -> Prop} (hK : OfWork goal K)
    (hmindful : forall w, K w -> Mindful goal none w) (hw : K w) :
    wp (idling V A goal) (isIdle A)
      (fun idle w => K w ∧ (idle = false -> Filled goal w))
      (fun _ => True) w := by
  unfold isIdle
  cases A.mailbox with
  | none => exact wp.pure ⟨hw, fun hbusy => by cases hbusy⟩
  | some _ => exact isEmpty_filled hK.stable hmindful hw

theorem drainTurn_engages (drained : Bool) (hw : Queued goal drained w) :
    wp (idling V A goal) (drainTurn A (!drained)) (fun _ => Mindful goal none)
      (fun _ => True) w := by
  apply wp.seq (isIdle_filled (Queued.ofWork drained) (fun _ hw => hw.left) hw)
  intro idle w hw
  by_cases hfinished : (!(!drained) && idle) = true
  · simp only [if_pos hfinished]
    exact wp.pure hw.left.left
  · simp only [if_neg hfinished]
    have hengaged : Engaged goal
        { receiveMessages := !drained, expectedMode := .draining } w := by
      intro hheading
      refine ⟨hw.left.left hheading, fun hdraining => ?_⟩
      cases idle with
      | false => exact Or.inl (hw.right rfl).right
      | true =>
          have hopen : drained = false := by simpa using hfinished
          exact Or.inr ⟨hdraining.symm, hw.left.right hopen⟩
    apply wp.seq (actorTurn_attends hengaged.attends)
    intro turn w hw
    exact wp.pure hw

theorem finishRepliesTurn_engages (hw : Filled goal w) :
    wp (idling V A goal) (finishRepliesTurn A) (fun _ => Mindful goal none)
      (fun _ => True) w := by
  let turn : TurnContext := { receiveMessages := false, expectedMode := .stopping }
  have hpoll : forall w, Expecting A goal turn w ->
      wp (idling V A goal) (pollActorReplies A turn)
        (PollAttends A goal turn) (fun _ => True) w := by
    intro w hw
    apply wp.mono (fun _ _ => PollEngages.attends) (fun _ hX => hX)
      (pollActorReplies_engages (hw.engaged _))
    intro hreceives
    cases hreceives.left
  apply wp.seq (select_attends rfl (fun hreceives => by cases hreceives.left)
    hpoll (hw.engaged turn).attends)
  intro _ w hw
  exact wp.pure hw

/-!
## The whole life
-/

theorem idling_spine (hgoal : goal ≠ .running) :
    Spine A (idling V A goal) (Mindful goal none) (Mindful goal none)
      (Filled goal) (Mindful goal none) (fun _ => True) (Queued goal) := by
  have hawake : (awake V steadyParts).Keeps (idling V A goal)
      (Mindful goal none) := (Mindful.ofReplies none).keeps rfl
  have hmindful : forall {α : Type} {p : P V α},
      p.Uses (awake V steadyParts) ->
        Keeps (idling V A goal) (Mindful goal none) (fun _ => True) p :=
    fun hp => (hp.keeps hawake).conseq (fun _ _ => trivial)
  have hteardown : (awake V looseParts).Keeps (idling V A goal)
      (fun _ => True) := idling_loose
  have hloose : (repertoire V looseParts).Keeps (idling V A goal)
      (fun _ => True) := awake_keeps hteardown rfl rfl
  have hhas : HasAwake (awake V steadyParts) steadyParts := awake_has
  exact {
    falls := fun _ _ => trivial
    waits := fun _ _ => trivial
    calm := awake_keeps hawake rfl rfl
    loose := hloose
    kill := (killActor_uses repertoire_has).keeps hloose
    fail := (failActor_uses repertoire_has).keeps hloose
    init := hmindful (runInit_awake (hhas.mono rfl))
    running := by
      intro w hw
      have hengaged : Engaged goal runningTurn w := hw.engaged hgoal.symm
      apply wp.mono _ (fun _ hX => hX) (actorTurn_attends hengaged.attends)
      intro turn w hw
      rw [leads_same]
      exact hw
    hook := fun event => hmindful (handleChildExit_awake (hhas.mono rfl) event)
    shutdown := fun shutdown => hmindful (callUser_uses (hhas.has rfl rfl))
    empties := by
      intro drained w hw
      apply wp.op (Mindful.ofReplies none).stable hw
      intro w _ hw
      refine ⟨trivial, ?_⟩
      intro input w' empty _ hexec _
      cases machine_exec hexec
      show Queued goal (drained || w.mail.queue.isEmpty) w
      refine ⟨hw, fun hopen hqueue => ?_⟩
      rw [hqueue] at hopen
      simp at hopen
    draining := by
      intro drained w hw
      apply wp.mono _ (fun _ hX => hX)
        (drainTurn_engages drained hw)
      intro turn w hw
      rw [drainLeads_same]
      exact hw
    discards := hmindful (closeAndDiscard_uses (hhas.has rfl rfl) true _)
    idle := by
      intro w hw
      apply wp.mono _ (fun _ hX => hX)
        (isIdle_filled (Mindful.ofReplies none).ofWork (fun _ hw => hw) hw)
      intro idle w hw
      cases idle with
      | true => exact hw.left
      | false => exact hw.right rfl
    modes := fun w hw => Filled.ofReplies.perform .mode rfl rfl w hw
    stopping := fun _ => finishRepliesTurn_engages
    graceful := by
      intro shutdown reason w hw
      apply wp.mono (fun _ _ _ => trivial) (fun _ hX => hX) (hmindful
        (gracefulFinish_awake (hhas.mono rfl) shutdown reason) w hw) }

/-- The runs in which no turn forgets that nothing is left. -/
abbrev Remembering (V : Type) (A : ActorConfig) (goal : Mode) :
    ActorState V -> Event (Input V) EnvAct -> Prop :=
  (idling V A goal).Permits

/-- A turn that expects the goal is suspended while something is left. -/
theorem idling_safe (hgoal : goal ≠ .running) {c : ActorState V}
    (h : Machine.Reaches (machine V A) (Remembering V A goal) (initial V A) c) :
    Safe (idling V A goal) (fun _ _ => True) (fun _ => True) c := by
  have hmindful : Mindful goal none (World.new V) :=
    fun _ _ _ hget _ => by cases hget
  exact (idling_spine hgoal).safe idling_lawful (fun _ _ => rfl)
    (fun _ _ => trivial) trivial hmindful h

end Loac

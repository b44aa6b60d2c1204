import Loac.Exclusion.Turns
import Loac.Interleave.Watch

/-!
# A life under leases

No lane is visited while the lease is held.  An exit event is therefore taken
while the lease is free, and its hook runs before anything else can fill it.
-/

namespace Loac

open Interleave Interleave.Prog

variable {V α β γ : Type} {A : ActorConfig} {heed : Prop} {w w' : World V}

/-!
## Lanes
-/

def PollLeads {σ : Type} (K : σ -> Prop) (Q : γ -> σ -> Prop) :
    Poll γ -> σ -> Prop
  | none => K
  | some c => Q c

abbrev turnLeads {σ : Type} (K C : σ -> Prop) :
    Poll SchedulerTurn -> σ -> Prop :=
  PollLeads K (SchedulerTurn.Leads K C)

def Visit.LeadsOn {σ : Type} (K C : σ -> Prop) : Visit -> σ -> Prop
  | .nothing => C
  | .selected turn => turn.Leads K C
  | .leave turn => turnLeads K C turn

abbrev laneLeads (A : ActorConfig) (heed : Prop) : Visit -> World V -> Prop :=
  Visit.LeadsOn (Leased A heed) (Vacant heed)

theorem vacant_lanes {p : P V α} {X : World V -> Prop}
    (hX : forall w, Vacant heed w -> X w)
    (hp : p.Uses (repertoire V laneParts)) :
    Keeps (leaseDiscipline V A heed) (Vacant heed) X p :=
  (hp.keeps (vacant_keeps rfl)).conseq hX

theorem leased_looks {p : P V α} (hp : p.Uses (repertoire V [.looks])) :
    Keeps (leaseDiscipline V A heed) (Leased A heed) (fun _ => True) p :=
  (hp.keeps (leased_keeps rfl)).conseq (fun _ _ => trivial)

theorem isLeased_vacant {X : World V -> Prop} (hw : Leased A heed w) :
    wp (leaseDiscipline V A heed) Queue.isLeased
      (fun leased w => Leased A heed w ∧ (leased = false -> Vacant heed w))
      X w := by
  apply wp.seq (held_found Leased.ofQueue hw)
  intro held w hw
  apply wp.pure
  refine ⟨hw.left, fun hfree => hw.left.vacant ?_⟩
  rw [hw.right]
  exact Option.isNone_iff_eq_none.mp (by simpa using hfree)

theorem hasDispatchCapacity_vacant {X : World V -> Prop}
    (hw : Leased A heed w) :
    wp (leaseDiscipline V A heed) (hasDispatchCapacity A)
      (fun capacity w => Leased A heed w ∧
        (capacity = true -> Vacant heed w)) X w := by
  apply wp.seq (isLeased_vacant hw)
  intro leased w hw
  have hboth : OfQueue (V := V) (fun w => Leased A heed w ∧
      (leased = false -> Vacant heed w)) := by
    intro w w' hitems hlease hw
    exact ⟨Leased.ofQueue w w' hitems hlease hw.left,
      fun hfree => Vacant.ofQueue w w' hitems hlease (hw.right hfree)⟩
  have hlength : Keeps (leaseDiscipline V A heed) (fun w => Leased A heed w ∧
      (leased = false -> Vacant heed w)) X (perform (.sched .length)) :=
    hboth.perform _ ⟨rfl, rfl⟩ (fun _ _ => trivial)
  apply wp.seq (hlength w hw)
  intro active w hw
  apply wp.pure
  refine ⟨hw.left, fun hcapacity => hw.right ?_⟩
  rw [Bool.and_eq_true, Bool.not_eq_true'] at hcapacity
  exact hcapacity.left

theorem mailboxLane_leads (turn : TurnContext) (start : ReplyLane)
    (hmailbox : A.mailbox ≠ none) (hw : Vacant heed w) :
    wp (leaseDiscipline V A heed) (mailboxLane A turn start)
      (laneLeads A heed) (fun _ => True) w := by
  have hlooks : forall {β : Type} (op : Op V β), op.part = .looks ->
      Keeps (leaseDiscipline V A heed) (Leased A heed) (fun _ => True)
        (perform op) := by
    intro β op hop
    apply leased_looks
    exact repertoire_has.perform (by rw [hop]; rfl)
  apply wp.rounds (fun _ => Vacant heed) hw
  intro dispatched w hw
  have hreceives : Keeps (leaseDiscipline V A heed) (Vacant heed)
      (fun _ => True) (perform (.mail (.pollRecv turn))) :=
    vacant_lanes (fun _ _ => trivial) (repertoire_has.perform rfl)
  apply wp.seq (hreceives w hw)
  intro received w hw
  cases received with
  | envelope envelope =>
      apply wp.seq ((lease_dispatching hmailbox).dispatch envelope hw)
      intro _ w hw
      apply wp.seq (hlooks (.differs turn.expectedMode) rfl w hw)
      intro differs w hw
      cases differs with
      | true =>
          apply wp.seq (hlooks (.sched (.setCursor _)) rfl w hw)
          intro _ w hw
          exact wp.done hw
      | false =>
          by_cases hbudget : dispatched + 1 = A.mailboxDispatchBudget
          · simp only [if_pos hbudget]
            exact wp.done hw
          · simp only [if_neg hbudget]
            apply wp.seq (hasDispatchCapacity_vacant hw)
            intro capacity w hw
            cases capacity with
            | true => exact wp.again (hw.right rfl)
            | false => exact wp.done hw.left
  | closed => exact wp.done hw.leased
  | pending =>
      by_cases hstart : dispatched > 0 ∧ start = .reply
      · simp only [if_pos hstart]
        have hreplies : Keeps (leaseDiscipline V A heed) (Vacant heed)
            (fun _ => True) hasReplies :=
          vacant_lanes (fun _ _ => trivial)
            (hasReplies_uses (repertoire_has.mono rfl))
        apply wp.seq (hreplies w hw)
        intro replies w hw
        cases replies with
        | true => exact wp.done hw.leased
        | false => exact wp.done hw
      · simp only [if_neg hstart]
        exact wp.done hw

theorem replyLane_leads (turn : TurnContext) (hmailbox : A.mailbox ≠ none)
    (hw : Vacant heed w) :
    wp (leaseDiscipline V A heed) (replyLane turn) (laneLeads A heed)
      (fun _ => True) w := by
  apply wp.seq (poll_vacant turn hmailbox hw)
  intro result w hw
  cases result with
  | pending => exact wp.pure hw
  | progress => exact wp.pure (Vacant.leased hw)
  | leased => exact wp.pure hw
  | budgetExhausted =>
      have hcursor : Keeps (leaseDiscipline V A heed) (Leased A heed)
          (fun _ => True) (perform (.sched (.setCursor ReplyLane.reply.next))) :=
        leased_looks (repertoire_has.perform rfl)
      apply wp.seq (hcursor w (Vacant.leased hw))
      intro _ w hw
      exact wp.pure hw

theorem pollChild_leads (hw : Vacant heed w) :
    wp (leaseDiscipline V A heed) (pollChild : P V (Poll SchedulerTurn))
      (fun turn w => Vacant heed w ∧
        turnLeads (Leased A heed) (Vacant heed) turn w) (fun _ => True) w := by
  have hpolls : Keeps (leaseDiscipline V A heed) (Vacant heed) (fun _ => True)
      (perform (.kin .pollExit)) :=
    vacant_lanes (fun _ _ => trivial) (repertoire_has.perform rfl)
  apply wp.seq (hpolls w hw)
  intro event w hw
  cases event with
  | none => exact wp.pure ⟨hw, hw.leased⟩
  | some event => exact wp.pure ⟨hw, hw⟩

theorem visit_leads (turn : TurnContext) (start lane : ReplyLane)
    (hmailbox : A.mailbox ≠ none) (hw : Vacant heed w) :
    wp (leaseDiscipline V A heed) (visit A turn start lane)
      (laneLeads A heed) (fun _ => True) w := by
  cases lane with
  | mailbox =>
      have hcapacity : Keeps (leaseDiscipline V A heed) (Vacant heed)
          (fun _ => True) (hasDispatchCapacity A) :=
        vacant_lanes (fun _ _ => trivial)
          (hasDispatchCapacity_uses (repertoire_has.mono rfl))
      apply wp.seq (hcapacity w hw)
      intro capacity w hw
      by_cases hreceive : (turn.receiveMessages && capacity) = true
      · simp only [if_pos hreceive]
        exact mailboxLane_leads turn start hmailbox hw
      · simp only [if_neg hreceive]
        exact wp.pure hw
  | reply =>
      have hreplies : Keeps (leaseDiscipline V A heed) (Vacant heed)
          (fun _ => True) hasReplies :=
        vacant_lanes (fun _ _ => trivial)
          (hasReplies_uses (repertoire_has.mono rfl))
      apply wp.seq (hreplies w hw)
      intro replies w hw
      cases replies with
      | true => exact replyLane_leads turn hmailbox hw
      | false => exact wp.pure hw
  | childExit =>
      apply wp.seq (pollChild_leads hw)
      intro turn w hw
      cases turn with
      | none => exact wp.pure hw.left
      | some turn => exact wp.pure hw.right

/-!
## Turns
-/

theorem pollLanes_leads (turn : TurnContext) (start : ReplyLane)
    (hmailbox : A.mailbox ≠ none) (hw : Vacant heed w) :
    wp (leaseDiscipline V A heed) (pollLanes A turn start)
      (turnLeads (Leased A heed) (Vacant heed)) (fun _ => True) w := by
  apply wp.rounds (fun _ => Vacant heed) hw
  intro lane w hw
  have hlooks : Keeps (leaseDiscipline V A heed) (Vacant heed)
      (fun _ => True) (differs turn.expectedMode) :=
    vacant_lanes (fun _ _ => trivial) (repertoire_has.perform rfl)
  apply wp.seq (hlooks w hw)
  intro differs w hw
  cases differs with
  | true => exact wp.done hw.leased
  | false =>
      apply wp.seq (visit_leads turn start lane hmailbox hw)
      intro visit w hw
      cases visit with
      | leave result => exact wp.done hw
      | selected selected =>
          have hadvances : Keeps (leaseDiscipline V A heed)
              (selected.Leads (Leased A heed) (Vacant heed)) (fun _ => True)
              (sched (.setCursor lane.next)) := by
            cases selected with
            | child event =>
                exact vacant_lanes (fun _ _ => trivial)
                  (repertoire_has.perform rfl)
            | _ => exact leased_looks (repertoire_has.perform rfl)
          apply wp.seq (hadvances w hw)
          intro _ w hw
          exact wp.done hw
      | nothing =>
          by_cases hlast : lane.next = start
          · simp only [if_pos hlast]
            have hadvances : Keeps (leaseDiscipline V A heed) (Vacant heed)
                (fun _ => True) (sched (.setCursor start.next)) :=
              vacant_lanes (fun _ _ => trivial) (repertoire_has.perform rfl)
            apply wp.seq (hadvances w hw)
            intro _ w hw
            exact wp.done (Vacant.leased hw)
          · simp only [if_neg hlast]
            exact wp.again hw

theorem pollTurn_leads (turn : TurnContext) (hw : Leased A heed w) :
    wp (leaseDiscipline V A heed) (pollTurn A turn)
      (turnLeads (Leased A heed) (Vacant heed)) (fun _ => True) w := by
  have hlooks : Keeps (leaseDiscipline V A heed) (Leased A heed)
      (fun _ => True) (differs turn.expectedMode) :=
    leased_looks (repertoire_has.perform rfl)
  unfold pollTurn
  cases hmailbox : A.mailbox with
  | none =>
      apply wp.seq (hlooks w hw)
      intro differs w hw
      cases differs with
      | true => exact wp.pure hw
      | false =>
          have hvacant := hw.vacant (hw.mailless hmailbox)
          exact wp.mono (fun _ _ hw => hw.right) (fun _ hX => hX)
            (pollChild_leads hvacant)
  | some transport =>
      have hsome : A.mailbox ≠ none := by
        rw [hmailbox]
        exact Option.some_ne_none transport
      apply wp.seq (hlooks w hw)
      intro differs w hw
      cases differs with
      | true => exact wp.pure hw
      | false =>
          apply wp.seq (isLeased_vacant hw)
          intro leased w hw
          cases leased with
          | true =>
              apply wp.seq (poll_leased turn hsome w hw.left)
              intro result w hw
              cases result <;> exact wp.pure hw
          | false =>
              have hcursor : Keeps (leaseDiscipline V A heed) (Vacant heed)
                  (fun _ => True) (sched .cursor) :=
                vacant_lanes (fun _ _ => trivial) (repertoire_has.perform rfl)
              apply wp.seq (hcursor w (hw.right rfl))
              intro start w hw
              exact pollLanes_leads turn start hsome hw

/-- The wait for a turn or for replies, whose poll may find some work. -/
theorem select_leads {site : Site} (hsite : site.part = .parks)
    {poll : P V (Poll γ)} {Q : γ -> World V -> Prop}
    (hQ : forall c, OfQueue (Q c))
    (hpoll : forall w, Leased A heed w ->
      wp (leaseDiscipline V A heed) poll (PollLeads (Leased A heed) Q)
        (fun _ => True) w)
    (hw : Leased A heed w) :
    wp (leaseDiscipline V A heed) (select site () (pollOnce poll))
      (Splits (fun _ => Leased A heed) Q) (fun _ => True) w := by
  have hdrops : forall {P : World V -> Prop}, OfQueue P ->
      Keeps (leaseDiscipline V A heed) P (fun _ => True)
        (perform .dropNotified) :=
    fun hP => hP.perform _ ⟨rfl, rfl⟩ (fun _ _ => trivial)
  have hwaits : forall {α : Type} (op : Op V α), op.part = .parks ->
      Keeps (leaseDiscipline V A heed) (Leased A heed) (fun _ => True)
        (perform op) := by
    intro α op hop
    have hparks : (perform op).Uses (repertoire V [.parks]) :=
      repertoire_has.perform (by rw [hop]; rfl)
    exact (hparks.keeps (leased_keeps rfl)).conseq (fun _ _ => trivial)
  apply wp.onExit
  apply wp.mono (Q := Splits (fun _ => Leased A heed) Q) (X := fun _ => True)
  · intro r w hw
    cases r with
    | inl _ => exact hdrops Leased.ofQueue w hw
    | inr c => exact hdrops (hQ c) w hw
  · intro w _
    exact hdrops (fun _ _ _ _ _ => trivial) w trivial
  · apply wp.rounds (fun _ => Leased A heed) hw
    intro _ w hw
    apply wp.seq (hwaits .pollNotified rfl w hw)
    intro notified w hw
    cases notified with
    | true => exact wp.done hw
    | false =>
        apply wp.bind
        apply wp.seq (hpoll w hw)
        intro r w hw
        cases r with
        | none =>
            apply wp.pure
            apply wp.seq (hwaits (.suspend site) hsite w hw)
            intro _ w hw
            exact wp.again hw
        | some c => exact wp.pure (wp.done hw)

theorem turn_ofQueue (turn : SchedulerTurn) :
    OfQueue (V := V) (turn.Leads (Leased A heed) (Vacant heed)) := by
  cases turn with
  | child event => exact Vacant.ofQueue
  | _ => exact Leased.ofQueue

theorem actorTurn_leads (turn : TurnContext) (hw : Leased A heed w) :
    wp (leaseDiscipline V A heed) (actorTurn A turn)
      (fun turn => turn.Leads (Leased A heed) (Vacant heed)) (fun _ => True)
      w := by
  apply wp.seq (select_leads rfl turn_ofQueue
    (fun _ => pollTurn_leads turn) hw)
  intro r w hw
  cases r with
  | inl _ => exact wp.pure hw
  | inr result => exact wp.pure hw

theorem isIdle_vacant (hw : Leased A heed w) :
    wp (leaseDiscipline V A heed) (isIdle A)
      (fun idle w => Leased A heed w ∧ (idle = true -> Vacant heed w))
      (fun _ => True) w := by
  unfold isIdle
  cases hmailbox : A.mailbox with
  | none =>
      exact wp.pure ⟨hw, fun _ => hw.vacant (hw.mailless hmailbox)⟩
  | some transport =>
      apply wp.op Leased.ofQueue.stable hw
      intro w _ hw
      refine ⟨trivial, ?_⟩
      intro input w' idle _ hexec _
      rcases Op.sched_result (machine_exec hexec) with ⟨hworld, hidle⟩
      change w.sched.items.isEmpty = idle at hidle
      subst hworld
      refine ⟨hw, fun hempty => hw.vacant ?_⟩
      rw [hempty] at hidle
      cases hlease : w.sched.lease with
      | none => rfl
      | some key =>
          exact absurd (Slots.isEmpty_iff.mp hidle key) (hw.holder key hlease)

theorem drainTurn_leads (receiveMessages : Bool) (hw : Leased A heed w) :
    wp (leaseDiscipline V A heed) (drainTurn A receiveMessages)
      (fun turn => turn.Leads (Leased A heed) (Vacant heed) (Vacant heed))
      (fun _ => True) w := by
  apply wp.seq (isIdle_vacant hw)
  intro idle w hw
  by_cases hfinished : (!receiveMessages && idle) = true
  · simp only [if_pos hfinished]
    have hidle := (Bool.and_eq_true_iff.mp hfinished).right
    exact wp.pure (hw.right hidle)
  · simp only [if_neg hfinished]
    apply wp.seq (actorTurn_leads _ hw.left)
    intro turn w hw
    exact wp.pure hw

theorem finishRepliesTurn_leased :
    Keeps (leaseDiscipline V A heed) (Leased A heed) (fun _ => True)
      (finishRepliesTurn A) := by
  intro w hw
  have hpoll : forall turn w, Leased A heed w ->
      wp (leaseDiscipline V A heed) (pollActorReplies A turn)
        (PollLeads (Leased A heed) (fun _ => Leased A heed))
        (fun _ => True) w := by
    intro turn w hw
    unfold pollActorReplies
    cases hmailbox : A.mailbox with
    | none => exact wp.pure hw
    | some transport =>
        have hsome : A.mailbox ≠ none := by
          rw [hmailbox]
          exact Option.some_ne_none transport
        apply wp.seq (poll_leased turn hsome w hw)
        intro result w hw
        cases result <;> exact wp.pure hw
  apply wp.seq (select_leads rfl (fun _ => Leased.ofQueue) (hpoll _) hw)
  intro r w hw
  cases r with
  | inl _ => exact wp.pure hw
  | inr _ => exact wp.pure hw

/-!
## The whole life
-/

theorem lease_loose :
    (repertoire V looseParts).Keeps (leaseDiscipline V A heed)
      (fun _ => True) where
  stable := Discipline.Stable.true
  op := by
    intro β op hop w _ _
    refine ⟨Part.meek_demands ?_, fun _ _ _ _ _ _ => ⟨trivial, trivial⟩⟩
    have hall : looseParts.all Part.meek = true := rfl
    exact List.all_eq_true.mp hall _ (List.contains_iff_mem.mp hop)

theorem lease_spine :
    Spine A (leaseDiscipline V A heed) (Leased A heed) (Vacant heed)
      (Leased A heed) (Vacant heed) (fun _ => True)
      (fun _ => Leased A heed) := by
  have hleased : forall {α : Type} {p : P V α} (parts : List Part),
      parts.all (fun part => part.abides && part.civil) = true ->
      p.Uses (repertoire V parts) ->
        Keeps (leaseDiscipline V A heed) (Leased A heed) (fun _ => True) p :=
    fun _ hparts hp => (hp.keeps (leased_keeps hparts)).conseq
      (fun _ _ => trivial)
  have hvacant : forall {α : Type} {p : P V α} (parts : List Part),
      parts.all Part.abides = true -> p.Uses (repertoire V parts) ->
        Keeps (leaseDiscipline V A heed) (Vacant heed) (fun _ => True) p :=
    fun _ hparts hp => (hp.keeps (vacant_keeps hparts)).conseq
      (fun _ _ => trivial)
  exact {
    falls := fun _ _ => trivial
    waits := fun _ _ => trivial
    calm := leased_keeps rfl
    loose := lease_loose
    kill := (killActor_uses repertoire_has).keeps lease_loose
    fail := (failActor_uses repertoire_has).keeps lease_loose
    init := hleased _ rfl (runInit_uses repertoire_has)
    running := fun _ => actorTurn_leads runningTurn
    hook := by
      intro event w hw
      apply wp.mono _ (fun _ hX => hX)
        (hvacant _ rfl (handleChildExit_uses repertoire_has event) w hw)
      exact fun _ _ hw => hw.leased
    shutdown := fun shutdown =>
      hleased [.shutdown] rfl (callUser_uses repertoire_has)
    empties := fun _ => hleased [.looks] rfl (repertoire_has.perform rfl)
    draining := fun drained _ => drainTurn_leads (!drained)
    discards := hleased _ rfl (closeAndDiscard_uses repertoire_has true _)
    idle := by
      intro w hw
      apply wp.mono _ (fun _ hX => hX) (isIdle_vacant hw)
      intro idle w hw
      cases idle with
      | true => exact hw.right rfl
      | false => exact hw.left
    modes := hleased [.looks] rfl (repertoire_has.perform rfl)
    stopping := finishRepliesTurn_leased
    graceful := by
      intro shutdown reason w hw
      apply wp.mono (fun _ _ _ => trivial) (fun _ hX => hX)
        (hvacant _ rfl (gracefulFinish_uses repertoire_has shutdown reason) w hw) }

/-- The runs in which no mode test neglects a reply that has returned. -/
abbrev Minding (V : Type) :
    ActorState V -> Event (Input V) EnvAct -> Prop :=
  Machine.Unmarked Neglects

theorem lease_safe {c : ActorState V}
    (h : Machine.Reaches (machine V A)
      (fun c event => heed -> Minding V c event) (initial V A) c) :
    Safe (leaseDiscipline V A heed) (fun _ _ => True) (fun _ => True) c := by
  have hvacant : Vacant heed (World.new V) :=
    ⟨rfl, fun _ _ _ hget _ => by cases hget⟩
  apply lease_spine.safe lease_lawful (fun _ _ => rfl) (fun _ _ => trivial)
    trivial hvacant.leased
  apply h.weaken
  intro c event hminding
  cases event with
  | env e => trivial
  | actor input =>
      unfold Minding Machine.Unmarked at hminding
      unfold Discipline.Permits
      dsimp only at hminding ⊢
      split
      · rename_i op next hprog
        rw [hprog] at hminding
        exact hminding
      · trivial

end Loac

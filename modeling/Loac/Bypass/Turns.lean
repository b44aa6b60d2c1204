import Loac.Bypass.Lanes

/-!
# Turns

A turn serves the lane at its cursor, or moves the cursor closer to it.  A turn
that ends with nothing has passed all lanes.
-/

namespace Loac

open Interleave Interleave.Prog

variable {V α β γ : Type} {A : ActorConfig} {w w' : World V}
  {turn : TurnContext} {start lane : ReplyLane} {goal : Option ReplyLane}
  {n bound : Nat} {X : World V × Trace -> Prop} {s : World V × Trace}

/-!
## One drain
-/

def DrainedTo (A : ActorConfig) (turn : TurnContext) (start : ReplyLane)
    (goal : Option ReplyLane) (n : Nat) :
    Option Bool -> World V × Trace -> Prop
  | none, s =>
      Inside A turn start goal .reply n s ∧ .reply ∈ s.2.served ∧
        s.1.sched.lease ≠ none
  | some completed, s =>
      (exists polled, DrainAt A turn start goal n (polled, completed) s) ∧
        (goal = some .reply -> .reply ∈ s.2.served)

theorem drainPoll_drains {polled : Nat} {completed : Bool} (key : Key)
    (scheduled : ScheduledFuture)
    (hs : DrainAt A turn start goal n (polled, completed) s)
    (hserved : .reply ∈ s.2.served) :
    wp (laneDiscipline A turn start goal β)
      (do
        let ready ← scheduled.pollWithTask key
        if ready then
          Queue.complete key
          again (polled + 1, true)
        else if (← sched .held).isSome then
          done none
        else
          again (polled + 1, completed))
      (Splits (DrainAt A turn start goal n) (DrainedTo A turn start goal n))
      (fun _ => True) s := by
  have hG : Sweepless (fun trace => .reply ∈ trace.served) := fun _ h => h
  have hpoll : wp (laneDiscipline A turn start goal β)
      (scheduled.pollWithTask key)
      (fun _ s' => (Inside A turn start goal .reply n s' ∧
        .reply ∈ s'.2.served) ∧
          s'.1.sched.items.length = s.1.sched.items.length)
      (fun _ => True) s :=
    wp.mono (fun _ _ hs => hs) (fun _ _ => trivial)
      ((pollWithTask_calm unsteered_calm key scheduled).keeps
        (poll_keeps hG) s ⟨⟨hs.inside, hserved⟩, rfl⟩)
  apply wp.seq hpoll
  intro ready s' hs'
  cases ready with
  | true =>
      have hcomplete : wp (laneDiscipline A turn start goal β)
          (Queue.complete key)
          (fun _ s => Inside A turn start goal .reply n s ∧
            .reply ∈ s.2.served) (fun _ => True) s' :=
        wp.mono (fun _ _ hs => hs) (fun _ _ => trivial)
          ((complete_calm unsteered_calm key).keeps
            (inside_keeps hG clearParts) s' hs'.left)
      apply wp.seq hcomplete
      intro _ s hs
      exact wp.again ⟨hs.left, fun _ => hs.right,
        (by intro h; cases h), (by intro h; cases h)⟩
  | false =>
      apply wp.seq (wp_reads (poll_keeps hG).stable (fun _ => rfl) rfl
        (fun _ _ => rfl) hs')
      intro held s' hs'
      have hheld : held = s'.1.sched.lease := hs'.right
      cases held with
      | some holder =>
          apply wp.done
          refine ⟨hs'.left.left.left, hs'.left.left.right, ?_⟩
          rw [← hheld]
          simp
      | none =>
          apply wp.again
          refine ⟨hs'.left.left.left, fun _ => hs'.left.left.right,
            fun _ => hheld.symm, fun hnone => ?_⟩
          rw [hs'.left.right]
          exact hs.length hnone

theorem drain_drains (hs : DrainAt A turn start goal n (0, false) s) :
    wp (laneDiscipline A turn start goal β) (Queue.drain turn)
      (DrainedTo A turn start goal n) (fun _ => True) s := by
  apply wp.rounds (DrainAt A turn start goal n) hs
  intro round s hs
  rcases round with ⟨polled, completed⟩
  by_cases hbudget : polled < activePollBudget
  · simp only [if_pos hbudget]
    apply wp.seq (wp_differs drainAt_stable hs)
    intro changed s hs
    cases changed with
    | true =>
        apply wp.done
        refine ⟨⟨polled, hs.left⟩, ?_⟩
        intro hgoal
        rw [goal_none hs.right] at hgoal
        cases hgoal
    | false =>
        have hwaits : Waits A turn goal s :=
          fun lane hgoal => (hs.right lane hgoal).right.right.right
        apply wp.seq (popReady_drains ⟨hs.left, hwaits⟩)
        intro key s hs
        cases key with
        | none => exact wp.done ⟨⟨polled, hs.left⟩, hs.right rfl⟩
        | some key =>
            apply wp.seq (wp_reads drainAt_stable (fun _ => rfl) rfl
              (fun _ _ => rfl) hs.left)
            intro scheduled s hs
            cases scheduled with
            | none => exact wp.again hs.left
            | some scheduled =>
                apply wp.seq (takeReady_drains hs.left)
                intro ready s hs
                cases ready with
                | false => exact wp.again hs.left
                | true =>
                    exact drainPoll_drains key scheduled hs.left (hs.right rfl)
  · simp only [if_neg hbudget]
    apply wp.done
    refine ⟨⟨polled, hs⟩, fun _ => hs.served ?_⟩
    unfold activePollBudget at hbudget
    omega

/-!
## The reply lane
-/

/-- What a collection of ready replies leads to, by its result. -/
def Collected (A : ActorConfig) (turn : TurnContext) (start : ReplyLane)
    (goal : Option ReplyLane) (n : Nat) : ReplyPoll -> World V × Trace -> Prop
  | .pending, s =>
      DrainedTo A turn start goal n (some false) s ∧ s.2.swept = true
  | .progress, s => Due start goal (start.distance .reply + 1) s
  | .leased, s =>
      Due start goal (start.distance .reply + 1) s ∧ s.1.sched.lease ≠ none
  | .budgetExhausted, s =>
      Due start goal (start.distance .reply + 1) s ∧ s.2.wokeItself = true

theorem DrainedTo.due {completed : Bool}
    (h : DrainedTo A turn start goal n (some completed) s) :
    Due start goal (start.distance .reply + 1) s := by
  rcases h with ⟨⟨polled, hdraining⟩, hserved⟩
  exact hdraining.inside.dueNext hserved (fun hlane => by cases hlane)

theorem drainedTo_stable {completed : Bool} :
    (laneDiscipline (V := V) A turn start goal β).Stable
      (DrainedTo A turn start goal n (some completed)) := by
  apply unseen_stable
  intro s s' hcursor hlease hitems htrace h
  rcases h with ⟨⟨polled, hdraining⟩, hserved⟩
  refine ⟨⟨polled, ?_⟩, by rw [htrace]; exact hserved⟩
  apply hdraining.same _ (by rw [htrace]; exact id) hlease hitems
  exact hdraining.inside.same hcursor (by rw [htrace]) (by rw [htrace])
    (by rw [htrace]) (by rw [htrace])

theorem readyIsEmpty_sweeps {completed : Bool}
    (hs : DrainedTo A turn start goal n (some completed) s) :
    wp (laneDiscipline A turn start goal β) (sched (.readyIsEmpty turn))
      (fun empty s => DrainedTo A turn start goal n (some completed) s ∧
        (empty = true -> s.2.swept = true)) X s := by
  apply wp.op drainedTo_stable hs
  intro s _ hs
  refine ⟨proper_of_asks rfl s.2, ?_⟩
  intro input s' empty _ hexec _
  rcases tracing_exec hexec with ⟨hworld, htrace⟩
  have hw' : s'.1 = s.1 := (Op.sched_result hworld).left
  rcases hs with ⟨⟨polled, hdraining⟩, hserved⟩
  have htouched : s'.2.touched = s.2.touched := by
    rw [htrace]
    cases empty <;> rfl
  have hsame : s'.2.served = s.2.served := by
    rw [htrace]
    cases empty <;> rfl
  have hmessages : s'.2.messages = s.2.messages := by
    rw [htrace]
    cases empty <;> rfl
  have hrefused : s'.2.refused = s.2.refused := by
    rw [htrace]
    cases empty <;> rfl
  refine ⟨⟨⟨polled, ?_⟩, ?_⟩, ?_⟩
  · apply hdraining.same _ (by rw [hsame]; exact id) (by rw [hw']) (by rw [hw'])
    exact hdraining.inside.same (by rw [hw']) htouched hsame hmessages hrefused
  · rw [hsame]
    exact hserved
  · intro hempty
    rw [htrace, hempty]
    rfl

theorem wakeTask_collects {completed : Bool}
    (hs : DrainedTo A turn start goal n (some completed) s) :
    wp (laneDiscipline A turn start goal β) (Prog.perform .wakeTask)
      (fun _ s => Due start goal (start.distance .reply + 1) s ∧
        s.2.wokeItself = true) X s := by
  apply wp.op drainedTo_stable hs
  intro s _ hs
  refine ⟨proper_of_asks rfl s.2, ?_⟩
  intro input s' _ _ hexec _
  have htrace := (tracing_exec hexec).right
  refine ⟨?_, ?_⟩
  · intro lane hgoal hbefore
    rw [htrace]
    exact hs.due lane hgoal hbefore
  · rw [htrace]
    rfl

theorem pollReady_collects (hs : DrainAt A turn start goal n (0, false) s) :
    wp (laneDiscipline A turn start goal β) (Queue.pollReady turn)
      (Collected A turn start goal n) (fun _ => True) s := by
  apply wp.seq (drain_drains hs)
  intro result s hs
  cases result with
  | none =>
      apply wp.pure
      exact ⟨hs.left.dueNext (fun _ => hs.right.left)
        (fun hlane => by cases hlane), hs.right.right⟩
  | some completed =>
      apply wp.seq (wp_differs drainedTo_stable hs)
      intro changed s hs
      cases changed with
      | true => exact wp.pure hs.left.due
      | false =>
          apply wp.seq (readyIsEmpty_sweeps hs.left)
          intro empty s hs
          cases empty with
          | true =>
              cases completed with
              | true => exact wp.pure hs.left.due
              | false => exact wp.pure ⟨hs.left, hs.right rfl⟩
          | false =>
              apply wp.seq (wakeTask_collects hs.left)
              intro _ s hs
              exact wp.pure hs

theorem replyLane_visits
    (hs : Head A turn start goal (start.distance .reply) s) :
    wp (laneDiscipline A turn start goal β) (replyLane turn)
      (Visited A turn start goal .reply) (fun _ => True) s := by
  have hpoll : wp (laneDiscipline A turn start goal β) (Queue.poll turn)
      (fun result s => exists n, Collected A turn start goal n result s)
      (fun _ => True) s := by
    apply wp.seq (wp_reads head_stable (fun _ => rfl) rfl (fun _ _ => rfl) hs)
    intro held s hs
    have hnone : held = none := hs.right.trans hs.left.lease
    subst hnone
    apply wp.mono _ (fun _ hX => hX) (pollReady_collects
      ⟨hs.left.inside, (fun hpos => absurd hpos (Nat.lt_irrefl _)),
        fun _ => hs.left.lease, fun _ => rfl⟩)
    exact fun result s hs => ⟨_, hs⟩
  apply wp.seq hpoll
  intro result s hs
  rcases hs with ⟨n, hs⟩
  cases result with
  | pending =>
      apply wp.pure
      rcases hs with ⟨⟨⟨polled, hdraining⟩, hserved⟩, hswept⟩
      exact hdraining.inside.next (hdraining.lease rfl)
        (fun hgoal => Or.inl (hserved hgoal))
        (fun _ => hswept) (fun _ => hdraining.length rfl) (fun _ _ => hswept)
  | progress => exact wp.pure hs
  | leased => exact wp.pure ⟨hs.left, Or.inl hs.right⟩
  | budgetExhausted =>
      have hstable : (laneDiscipline (V := V) A turn start goal β).Stable
          (fun s => Due start goal (start.distance .reply + 1) s ∧
            s.2.wokeItself = true) := by
        apply unseen_stable
        intro s s' _ _ _ htrace h
        unfold Due
        rw [htrace]
        exact h
      apply wp.seq (wp_setCursor hstable
        (R := fun s => Due start goal (start.distance .reply + 1) s ∧
          s.2.wokeItself = true ∧ s.1.sched.cursor = ReplyLane.reply.next)
        ?_ hs)
      · intro _ s hs
        exact wp.pure ⟨hs.left, Or.inr hs.right⟩
      · intro s s' hcursor _ _ htrace h
        unfold Due
        rw [htrace]
        exact ⟨h.left, h.right, hcursor⟩

theorem visitReply_visits
    (hs : Head A turn start goal (start.distance .reply) s ∧
      Waits A turn goal s) :
    wp (laneDiscipline A turn start goal β) (visit A turn start .reply)
      (Visited A turn start goal .reply) (fun _ => True) s := by
  apply wp.seq (hasReplies_reads (head_stable.and waits_stable) hs)
  intro replies s hs
  have hhead := hs.left.left
  cases replies with
  | true => exact replyLane_visits hhead
  | false =>
      apply wp.pure
      have hempty : s.1.sched.items.isEmpty = true := by
        simpa using hs.right.symm
      have hlength : s.1.sched.items.length = 0 :=
        Slots.length_eq_zero_iff.mpr hempty
      apply hhead.inside.next hhead.lease
      · intro hgoal
        apply Or.inl
        by_contra hunserved
        rcases hs.left.right .reply hgoal hunserved with
          ⟨key, scheduled, _, _, hfound⟩
        have hnone := Slots.isEmpty_iff.mp hempty key
        rw [hnone] at hfound
        cases hfound
      · exact fun hne => absurd hlength hne
      · exact fun _ => rfl
      · exact fun hbefore => hhead.passed .reply hbefore

theorem visit_visits (lane : ReplyLane)
    (hs : Head A turn start goal (start.distance lane) s ∧
      Waits A turn goal s) :
    wp (laneDiscipline A turn start goal β) (visit A turn start lane)
      (Visited A turn start goal lane) (fun _ => True) s := by
  cases lane with
  | mailbox => exact visitMailbox_visits hs
  | reply => exact visitReply_visits hs
  | childExit => exact childExitLane_visits hs

end Loac

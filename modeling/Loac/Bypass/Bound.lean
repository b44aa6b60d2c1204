import Loac.Bypass.Calls
import Loac.Course.Children

/-!
# Bounded bypass

A lane that stays enabled is served by the third of three calls that follow one
another.  A call dispatches at most one batch, and a call that is pending for
good has passed all lanes.
-/

namespace Loac

open Interleave Interleave.Prog

variable {V : Type} {A : ActorConfig} {turn : TurnContext}
  {lane : ReplyLane} {w w' : World V} {trace : Trace}

def Calls (A : ActorConfig) (turn : TurnContext) (w : World V) :
    Config (Op V) (World V × Trace) (Poll SchedulerTurn) -> Prop :=
  Machine.Reaches ((tracing V A).solo _) Machine.Anything
    ⟨(w, Trace.new), MailboxRuntime.pollTurn A turn⟩

def testsMode (c : Config (Op V) (World V × Trace) (Poll SchedulerTurn)) :
    Bool :=
  match c.prog with
  | .act (.differs _) _ => true
  | _ => false

def Fairly (A : ActorConfig) (turn : TurnContext) (lane : ReplyLane)
    (c : Config (Op V) (World V × Trace) (Poll SchedulerTurn)) : Prop :=
  testsMode c = true -> Fair A turn lane c.state

def Budgeted (c : Config (Op V) (World V × Trace) (Poll SchedulerTurn)) :
    Event (Input V) EnvAct -> Prop
  | .env _ => True
  | .actor input =>
      match c.prog with
      | .act op _ => Rationed op input c.state.2
      | _ => True

def CallThrough
    (permitted : Config (Op V) (World V × Trace) (Poll SchedulerTurn) ->
      Event (Input V) EnvAct -> Prop)
    (A : ActorConfig) (turn : TurnContext) (w w' : World V) (trace : Trace) :
    Prop :=
  exists result, Machine.Reaches ((tracing V A).solo _) permitted
    ⟨(w, Trace.new), MailboxRuntime.pollTurn A turn⟩
    ⟨(w', trace), .pure result⟩

def FairCall (A : ActorConfig) (turn : TurnContext) (lane : ReplyLane) :
    World V -> World V -> Trace -> Prop :=
  CallThrough (fun c _ => Fairly A turn lane c) A turn

def RationedCall (A : ActorConfig) (turn : TurnContext) (lane : ReplyLane) :
    World V -> World V -> Trace -> Prop :=
  CallThrough (fun c event => Fairly A turn lane c ∧ Budgeted c event) A turn

theorem rationed_permits
    {c : Config (Op V) (World V × Trace) (Poll SchedulerTurn)}
    {event : Event (Input V) EnvAct} {start : ReplyLane}
    (h : Fairly A turn lane c ∧ Budgeted c event) :
    (laneDiscipline A turn start (some lane) _).Permits c event := by
  rcases c with ⟨s, prog⟩
  rcases h with ⟨hfair, hbudget⟩
  cases event with
  | env e => trivial
  | actor input =>
      cases prog with
      | act op next =>
          cases op with
          | differs expected =>
              intro other hgoal
              cases hgoal
              exact hfair rfl
          | _ => exact fun _ => hbudget
      | _ => trivial

theorem lane_cancels {goal : Option ReplyLane} {start : ReplyLane}
    {Q : Poll SchedulerTurn -> World V × Trace -> Prop}
    {X : World V × Trace -> Prop} :
    Safe.Cancels (laneDiscipline A turn start goal _) Q X := by
  intro γ op input p s hcancel
  cases hcancel

theorem calls_safe (goal : Option ReplyLane) :
    Safe (laneDiscipline A turn w.sched.cursor goal _)
      (CallEnds A turn w.sched.cursor goal) (fun _ => True)
      ⟨(w, Trace.new), MailboxRuntime.pollTurn A turn⟩ :=
  ⟨⟨List.Pairwise.nil, Nat.zero_le _, fun _ hserved => hserved⟩, (w, Trace.new),
    .refl, pollTurn_ends ⟨rfl, rfl⟩⟩

theorem RationedCall.approaches (h : RationedCall A turn lane w w' trace)
    (hunserved : lane ∉ trace.served) (hlease : w'.sched.lease = none) :
    w'.sched.cursor.distance lane < w.sched.cursor.distance lane := by
  rcases h with ⟨result, hreach⟩
  have hends := (Safe.run lane_lawful lane_cancels (calls_safe (some lane))
    (hreach.weaken fun _ _ => rationed_permits)).returned callEnds_stable
  rcases hends.approached lane rfl with hserved | hheld | hcloser
  · exact absurd hserved hunserved
  · exact absurd hlease hheld
  · exact hcloser

theorem Calls.safe (h : Calls A turn w c) :
    Safe (laneDiscipline A turn w.sched.cursor none _)
      (CallEnds A turn w.sched.cursor none) (fun _ => True) c := by
  apply Safe.run lane_lawful lane_cancels (calls_safe none)
  apply h.weaken
  intro c event _
  apply Discipline.permits_all _ (fun _ _ => trivial)
  intro γ op input s
  cases op with
  | differs expected =>
      intro other hgoal
      cases hgoal
  | _ => exact fun hgoal => absurd rfl hgoal

theorem Circling.visit {start : ReplyLane} (h : Circling A start trace)
    {later between earlier : List ReplyLane}
    (htouched : trace.touched = later ++ lane :: (between ++ lane :: earlier))
    {other : ReplyLane} (hother : other ∈ between) : other = lane := by
  have horder := h.order
  rw [htouched] at horder
  have hrest := (List.pairwise_append.mp horder).right.left
  rcases List.pairwise_cons.mp hrest with ⟨hfirst, hrest⟩
  have hlow := (List.pairwise_append.mp hrest).right.right other hother lane
    (List.mem_cons_self ..)
  have hhigh := hfirst other (List.mem_append_left _ hother)
  exact ReplyLane.eq_of_distance (Nat.le_antisymm hhigh hlow)

/--
Three calls follow one another when the cursor stays between them, and no lease
is held.  If they are fair to a lane, which is enabled until one of them serves
it, and if the receivers that they poll share one budget, then the third one
serves it at the latest.

No call dispatches more messages than the budget, or asks another lane between
two of them.  When a call is pending, has not woken its own task, and holds no
lease, it has asked all lanes that are enabled, and it has found the ready queue
empty after the last reply that it scheduled.
-/
theorem lanes_bypassed_boundedly (A : ActorConfig) :
    (forall lane turn turn' turn'' (w₀ w₀' w₁ w₁' w₂ w₂' : World V)
        trace trace' trace'',
      RationedCall A turn lane w₀ w₀' trace -> lane ∉ trace.served ->
      w₀'.sched.lease = none -> w₁.sched.cursor = w₀'.sched.cursor ->
      RationedCall A turn' lane w₁ w₁' trace' -> lane ∉ trace'.served ->
      w₁'.sched.lease = none -> w₂.sched.cursor = w₁'.sched.cursor ->
      RationedCall A turn'' lane w₂ w₂' trace'' -> w₂'.sched.lease = none ->
        lane ∈ trace''.served) ∧
    (forall turn (w : World V) c, Calls A turn w c ->
      c.state.2.messages <= A.mailboxDispatchBudget ∧
      forall later between earlier, c.state.2.touched =
          later ++ .mailbox :: (between ++ .mailbox :: earlier) ->
        forall lane, lane ∈ between -> lane = .mailbox) ∧
    (forall turn (w w' : World V) trace,
      Calls A turn w ⟨(w', trace), .pure none⟩ -> trace.wokeItself = false ->
      w'.sched.lease = none ->
        forall lane, PassedOver A turn (w', trace) lane) := by
  refine ⟨?_, ?_, ?_⟩
  · intro lane turn turn' turn'' w₀ w₀' w₁ w₁' w₂ w₂' trace trace' trace''
      hfirst hunserved hlease hcursor hsecond hunserved' hlease' hcursor'
      hthird hlease''
    by_contra hunserved''
    have hone := hfirst.approaches hunserved hlease
    have htwo := hsecond.approaches hunserved' hlease'
    have hthree := hthird.approaches hunserved'' hlease''
    rw [hcursor] at htwo
    rw [hcursor'] at hthree
    have hbound := ReplyLane.distance_le_two w₀.sched.cursor lane
    omega
  · intro turn w c hcalls
    have hcircling := hcalls.safe.inv
    exact ⟨hcircling.budget, fun _ _ _ htouched _ => hcircling.visit htouched⟩
  · intro turn w w' trace hcalls hasleep hlease
    have hends := hcalls.safe.returned callEnds_stable
    rcases hends.pending rfl with hwoke | hheld | hpassed
    · rw [hasleep] at hwoke
      cases hwoke
    · exact absurd hlease hheld
    · exact hpassed

/-!
## Three calls
-/

instance (lane : ReplyLane) : Decidable (Enabled A turn w lane) :=
  match lane with
  | .mailbox => inferInstanceAs (Decidable (_ ∧ _ ∧ _ ∧ _))
  | .reply =>
      decidable_of_iff (exists key, key ∈ w.sched.ready ∧
          (w.sched.wakes key).ready = true ∧
          (w.sched.items.get? key).isSome = true) <| by
        simp only [Enabled, Option.isSome_iff_exists]
        constructor
        · rintro ⟨key, hqueued, hready, scheduled, hfound⟩
          exact ⟨key, scheduled, hqueued, hready, hfound⟩
        · rintro ⟨key, scheduled, hqueued, hready, hfound⟩
          exact ⟨key, hqueued, hready, scheduled, hfound⟩
  | .childExit => inferInstanceAs (Decidable (_ ≠ _))

instance (s : World V × Trace) : Decidable (Fair A turn lane s) :=
  inferInstanceAs (Decidable (_ ∧ _ ∧ _))

instance (c : Config (Op V) (World V × Trace) (Poll SchedulerTurn)) :
    Decidable (Fairly A turn lane c) :=
  inferInstanceAs (Decidable (_ -> _))

instance (trace : Trace) : Decidable trace.Spent :=
  inferInstanceAs (Decidable (_ ∨ _))

instance {α : Type} (op : Op V α) (input : Input V) (trace : Trace) :
    Decidable (Rationed op input trace) :=
  decidable_of_iff ((op.refuses input = true -> trace.Spent) ∧
      (trace.refused = true -> op.polls = true -> op.refuses input = true))
    ⟨fun h => ⟨h.left, h.right⟩, fun h => ⟨h.spends, h.lasts⟩⟩

instance (c : Config (Op V) (World V × Trace) (Poll SchedulerTurn)) :
    (event : Event (Input V) EnvAct) -> Decidable (Budgeted c event)
  | .env _ => inferInstanceAs (Decidable True)
  | .actor input =>
      match c with
      | ⟨s, .act op _⟩ => inferInstanceAs (Decidable (Rationed op input s.2))
      | ⟨_, .pure _⟩ => inferInstanceAs (Decidable True)
      | ⟨_, .throw⟩ => inferInstanceAs (Decidable True)
      | ⟨_, .loop _ _ _⟩ => inferInstanceAs (Decidable True)

def busyTurn (A : ActorConfig) : World Unit :=
  ((machine Unit A).stage .next 60
    [.env .reserve, .env (.admitEnvelope .send), .env .reserve,
      .env (.admitEnvelope .send), .env .reserve, .env (.admitEnvelope .send),
      .actor (.spawn true), spawnsChild, silent,
      .env (.child 0 (.finish (.new .stopped .terminated))),
      .env (.childPublish 0)] 0 (initial Unit A)).state

def ordinaryTurn : TurnContext where
  receiveMessages := true
  expectedMode := .running

abbrev Choice :=
  Config (Op Unit) (World Unit × Trace) (Poll SchedulerTurn) -> Input Unit

def turned (A : ActorConfig) (choose : Choice) (w : World Unit) :
    Config (Op Unit) (World Unit × Trace) (Poll SchedulerTurn) :=
  ((tracing Unit A).solo _).steer choose 40
    ⟨(w, Trace.new), MailboxRuntime.pollTurn A ordinaryTurn⟩

theorem turned_through
    {permitted : Config (Op Unit) (World Unit × Trace) (Poll SchedulerTurn) ->
      Event (Input Unit) EnvAct -> Prop}
    {choose : Choice} {w : World Unit}
    (h : forall k, k < 40 ->
      permitted (((tracing Unit A).solo _).steer choose k
          ⟨(w, Trace.new), MailboxRuntime.pollTurn A ordinaryTurn⟩)
        (.actor (choose (((tracing Unit A).solo _).steer choose k
          ⟨(w, Trace.new), MailboxRuntime.pollTurn A ordinaryTurn⟩))))
    (hreturned : (turned A choose w).hasReturned = true) :
    CallThrough permitted A ordinaryTurn w (turned A choose w).state.1
      (turned A choose w).state.2 := by
  have hreach : Machine.Reaches ((tracing Unit A).solo _) permitted
      ⟨(w, Trace.new), MailboxRuntime.pollTurn A ordinaryTurn⟩
      (turned A choose w) := Machine.steer_reaches_of h
  revert hreach hreturned
  generalize turned A choose w = c
  intro hreturned hreach
  rcases c with ⟨s, prog⟩
  cases prog with
  | pure result => exact ⟨result, hreach⟩
  | _ => cases hreturned

def readily : Choice := fun _ => .user (.returns (some ()))

def afterTwoCalls : World Unit :=
  (turned sociable readily (turned sociable readily (busyTurn sociable)).state.1
    ).state.1

/-- The mailbox, the reply, and the exit are served one after another. -/
theorem busyTurn_served :
    ReplyLane.childExit ∈
      (turned sociable readily afterTwoCalls).state.2.served :=
  (lanes_bypassed_boundedly sociable).left .childExit ordinaryTurn ordinaryTurn
    ordinaryTurn _ _ _ _ _ _ _ _ _
    (turned_through (by decide +kernel) (by decide +kernel)) (by decide +kernel)
    (by decide +kernel) rfl
    (turned_through (by decide +kernel) (by decide +kernel)) (by decide +kernel)
    (by decide +kernel) rfl
    (turned_through (by decide +kernel) (by decide +kernel)) (by decide +kernel)

/-!
## A receiver out of budget
-/

/-- An inbox of its own, which does not share the budget of the exits. -/
def unrationed : ActorConfig :=
  { sociable with mailbox := some .conforming }

def greedily : Choice := fun c =>
  match c.prog with
  | .act (.kin .pollExit) _ => .exhausted
  | .act (.user (.replyPoll _)) _ => .user (.returns none)
  | _ => .user (.returns (some ()))

def afterGreedyCall : World Unit :=
  (turned unrationed greedily (busyTurn unrationed)).state.1

def afterGreedyCalls : World Unit :=
  (turned unrationed greedily afterGreedyCall).state.1

/-- The exit is refused in each turn, and the mailbox is served instead. -/
theorem greedyTurns_overlook :
    ¬ forall lane turn turn' turn'' (w₀ w₀' w₁ w₁' w₂ w₂' : World Unit)
        trace trace' trace'',
      FairCall unrationed turn lane w₀ w₀' trace -> lane ∉ trace.served ->
      w₀'.sched.lease = none -> w₁.sched.cursor = w₀'.sched.cursor ->
      FairCall unrationed turn' lane w₁ w₁' trace' -> lane ∉ trace'.served ->
      w₁'.sched.lease = none -> w₂.sched.cursor = w₁'.sched.cursor ->
      FairCall unrationed turn'' lane w₂ w₂' trace'' ->
      w₂'.sched.lease = none -> lane ∈ trace''.served := by
  intro hbound
  have hserved := hbound .childExit ordinaryTurn ordinaryTurn ordinaryTurn
    (busyTurn unrationed) afterGreedyCall afterGreedyCall afterGreedyCalls
    afterGreedyCalls _ _ _ _
    (@turned_through unrationed _ greedily _ (by decide +kernel)
      (by decide +kernel)) (by decide +kernel) (by decide +kernel) rfl
    (@turned_through unrationed _ greedily _ (by decide +kernel)
      (by decide +kernel)) (by decide +kernel) (by decide +kernel) rfl
    (@turned_through unrationed _ greedily _ (by decide +kernel)
      (by decide +kernel)) (by decide +kernel)
  revert hserved
  decide +kernel

end Loac

import Loac.Containment.Spine

/-!
# The operations of lifecycle work

Selects and guarded futures use what their sides use, and the few operations of
waiting.  The turns of an actor are put together from polls of the ready queue
and from dispatches, so what both keep is kept by a turn.
-/

namespace Loac

open Interleave Interleave.Prog

variable {V α β γ : Type} {A : ActorConfig} {S : Vocabulary (Op V)}

/-!
## Waiting
-/

def selectParts : List Part := [.looks, .notified, .parks]

theorem select_uses (h : Has S selectParts) {site : Site}
    (hsite : site.part = .parks) (start : β) {poll : β -> P V (β ⊕ γ)}
    (hpoll : forall b, (poll b).Uses S) :
    (select site start poll : P V (β ⊕ γ)).Uses S := by
  have hsuspend : (suspend site : P V Unit).Uses S :=
    h.perform (by
      show selectParts.contains site.part = true
      rw [hsite]
      rfl)
  refine Within.onExit (Within.repeated fun b => ?_) (h.perform rfl)
  refine Within.seq (h.perform rfl) fun notified => ?_
  refine Within.ite (by trivial) ?_
  refine Within.seq (hpoll b) fun r => ?_
  cases r with
  | inl _ => exact Within.seq hsuspend (fun _ => trivial)
  | inr _ => trivial

def workParts : List Part := .fails :: selectParts

theorem guard_uses (h : Has S [.fails]) {future : β -> P V (β ⊕ γ)}
    {drop : P V Unit} (hfuture : forall b, (future b).Uses S)
    (hdrop : drop.Uses S) (b : β) :
    (ActorWorkGuard.poll future drop b).Uses S := by
  have hdropped := dropFuturePanicked_uses h hdrop
  refine Within.bind (hfuture b).attempt fun r _ => ?_
  cases r with
  | none =>
      exact Within.seq (containPanic_uses h)
        (fun _ => Within.seq hdropped (fun _ => trivial))
  | some r =>
      cases r with
      | inl _ => trivial
      | inr output =>
          exact Within.seq hdropped (fun _ => Within.ite trivial trivial)

theorem awaitActorWork_uses (h : Has S workParts) {site : Site}
    (hsite : site.part = .parks) (start : β) {future : β -> P V (β ⊕ γ)}
    {drop : P V Unit} (hfuture : forall b, (future b).Uses S)
    (hdrop : drop.Uses S) :
    (awaitActorWork site start future drop : P V (Work γ)).Uses S := by
  refine Within.repeated fun b => ?_
  refine Within.seq (h.perform rfl) fun mode => ?_
  apply Within.ite
  · exact Within.seq (dropFuturePanicked_uses (h.mono rfl) hdrop)
      (fun _ => trivial)
  · refine Within.seq (select_uses (h.mono rfl) hsite b
      (guard_uses (h.mono rfl) hfuture hdrop)) fun r => ?_
    cases r <;> trivial

theorem awaitUser_uses (h : Has S (.retires :: workParts)) {site : Site}
    (hsite : site.part = .parks) {pollSite dropSite : UserSite}
    (hpoll : Has S [pollSite.part]) (hdrop : dropSite.part = .retires) :
    (awaitActorWork site () (fun _ => pollUser pollSite)
      (callUser dropSite) : P V (Work Unit)).Uses S := by
  refine awaitActorWork_uses (h.mono rfl) hsite () (fun _ => pollUser_uses hpoll)
    (callUser_uses ?_)
  rw [hdrop]
  exact h.mono rfl

/-!
## Lifecycle work
-/

def initParts : List Part :=
  .enters :: .init :: .retires :: workParts

theorem runInit_uses (h : Has S initParts) :
    (runInit : P V (Work Unit)).Uses S := by
  refine Within.seq (h.perform rfl) fun began => ?_
  apply Within.ite
  · refine Within.bind (callUser_uses (h.mono rfl)).attempt fun r _ => ?_
    cases r with
    | some _ => exact awaitUser_uses (h.mono rfl) rfl (h.mono rfl) rfl
    | none =>
        exact Within.seq (containPanic_uses (h.mono rfl)) (fun _ => trivial)
  · exact Within.seq (dropUserValue_uses (h.mono rfl)
      (callUser_uses (h.mono rfl))) (fun _ => trivial)

def hookParts : List Part :=
  .reaps :: .gate :: .hook :: .retires :: workParts

theorem handleChildExit_uses (h : Has S hookParts) (event : ChildExit) :
    (handleChildExit event : P V (Work Unit)).Uses S := by
  refine Within.seq (h.perform rfl) fun reaped => ?_
  apply Within.ite
  · refine Within.seq (h.perform rfl) fun opened => ?_
    apply Within.ite
    · exact awaitUser_uses (h.mono rfl) rfl (h.mono rfl) rfl
    · trivial
  · trivial

def gracefulParts : List Part :=
  .marks :: .asks :: .waits :: .stop :: .retires :: workParts

theorem finishChildren_uses (h : Has S gracefulParts) (shutdown : Shutdown)
    (keys : Option (List Key)) :
    (finishChildren shutdown keys :
      P V (Option (List Key) ⊕ Unit)).Uses S := by
  have hwait : forall keys : List Key,
      (finishChildren.finishChildrenWait keys :
        P V (Option (List Key) ⊕ Unit)).Uses S := by
    intro keys
    refine Within.seq (pollWait_uses (h.mono rfl) keys) fun r => ?_
    cases r <;> trivial
  cases keys with
  | some keys => exact hwait keys
  | none =>
      exact Within.seq (requestAll_uses (h.mono rfl) shutdown)
        (fun _ => Within.seq (h.perform rfl) hwait)

theorem gracefulFinish_uses (h : Has S gracefulParts) (shutdown : Shutdown)
    (reason : ExitReason) :
    (gracefulFinish shutdown reason : P V (Work Unit)).Uses S := by
  refine Within.seq (h.perform rfl) fun _ => ?_
  refine Within.seq (awaitActorWork_uses (h.mono rfl) rfl none
    (finishChildren_uses h shutdown) trivial) fun work => ?_
  cases work with
  | complete _ => exact awaitUser_uses (h.mono rfl) rfl (h.mono rfl) rfl
  | killed => trivial
  | panicked => trivial
  | dropPanicked _ => trivial

/-!
## Contained code

Paying a caller runs user code, and no panic of it leaves the boundaries.
-/

section Contained

variable {σ ρ : Type} {M : Machine (Op V) σ (Input V) EnvAct ρ}
  {D : Discipline M} {K X : σ -> Prop}

theorem attempt_keeps {p : P V α} (hp : Keeps D K K p) :
    Keeps D K X p.attempt := by
  intro s hs
  apply wp.attempt
  exact wp.mono (fun _ _ hs => hs) (fun _ hs => hs) (hp s hs)

theorem dropUserValue_keeps {value : P V Unit} (hvalue : Keeps D K K value)
    (hfails : (repertoire V [.fails]).Keeps D K) :
    Keeps D K X (dropUserValue value) := by
  refine Keeps.bind (attempt_keeps hvalue) fun r => ?_
  cases r with
  | some _ => exact Keeps.pure _
  | none => exact hfails.perform (.transact .beginFailure) rfl

theorem repertoire_mono {parts few : List Part}
    (h : (repertoire V parts).Keeps D K)
    (hsub : few.all parts.contains = true) : (repertoire V few).Keeps D K where
  stable := h.stable
  op := by
    intro β op hop
    have hall := List.all_eq_true.mp hsub
    exact h.op op (hall _ (List.contains_iff_mem.mp hop))

variable (h : (repertoire V payingParts).Keeps D K)

include h

theorem dropValue_keeps {site : UserSite} (hsite : site.part = .values) :
    Keeps D K X (dropUserValue (callUser site) : P V Unit) := by
  apply dropUserValue_keeps _ (repertoire_mono h rfl)
  apply (callUser_uses _).keeps h
  rw [hsite]
  exact repertoire_has.mono rfl

theorem notifyResponse_keeps (id : Nat) (response : Response V) :
    Keeps D K X (notifyResponse id response) := by
  refine Keeps.bind (h.perform (.mail (.respond id response)) rfl)
    fun received => ?_
  apply Keeps.ite
  · have hwaker : (callUser .responseWaker : P V Unit).Uses
        (repertoire V payingParts) := callUser_uses (repertoire_has.mono rfl)
    exact Keeps.bind (attempt_keeps (hwaker.keeps h)) (fun _ => Keeps.pure _)
  · cases response with
    | ok value => exact dropValue_keeps h rfl
    | error error => exact Keeps.pure _

theorem completeReply_keeps (reply : DispatchReply) (response : Option V) :
    Keeps D K X (reply.complete response) := by
  cases reply with
  | caller id =>
      refine Keeps.bind (h.perform (.mail (.beginCompletion id)) rfl)
        fun result => ?_
      cases result with
      | ok _ => exact notifyResponse_keeps h id _
      | error error =>
          exact Keeps.bind (notifyResponse_keeps h id _)
            (fun _ => dropValue_keeps h rfl)
  | oneWay id =>
      exact Keeps.bind (h.perform (.mail (.beginCompletion id)) rfl)
        (fun _ => dropValue_keeps h rfl)

omit h in
theorem dropReply_keeps (h : (repertoire V answerParts).Keeps D K)
    (reply : DispatchReply) : Keeps D K X (reply.drop : P V Unit) := by
  have hfail : Keeps D K X (DispatchReply.fail : P V CallError) :=
    Keeps.bind (h.perform (.transact .beginFailure) rfl)
      (fun _ => Keeps.bind (h.perform .mode rfl) (fun _ => Keeps.pure _))
  cases reply with
  | caller id =>
      exact Keeps.bind hfail
        (fun _ => notifyResponse_keeps (repertoire_mono h rfl) id _)
  | oneWay id => exact Keeps.bind hfail (fun _ => Keeps.pure _)

end Contained

/-!
## Turns
-/

section Turns

variable {σ : Type} {M : Machine (Op V) σ (Input V) EnvAct Unit}
  {D : Discipline M} {K X : σ -> Prop}

/-- Deciding the fate of an envelope before its handler is scheduled. -/
def decisionParts : List Part :=
  [.looks, .fails, .answers, .values, .receives]

structure Dispatching (D : Discipline M) (K R X : σ -> Prop) : Prop where
  falls : forall s, K s -> X s
  settles : forall s, K s -> R s
  decides : (repertoire V decisionParts).Keeps D K
  single : forall reply s, K s ->
    wp D (scheduleReply reply : P V Unit) (fun _ => R) X s
  stream : forall reply s, K s ->
    wp D (StreamKind.dispatch reply : P V Unit) (fun _ => R) X s

namespace Dispatching

variable {R : σ -> Prop} {s : σ} (h : Dispatching (V := V) D K R X)

include h

theorem quiet {p : P V α} (hp : p.Uses (repertoire V decisionParts)) :
    Keeps D K X p :=
  (hp.keeps h.decides).conseq h.falls

theorem op (op : Op V α) (hop : decisionParts.contains op.part = true) :
    Keeps D K X (perform op) :=
  h.decides.perform op hop

theorem rejects {p : P V Unit} (hp : p.Uses (repertoire V decisionParts))
    (hs : K s) : wp D p (fun _ => R) X s :=
  wp.mono (fun _ => h.settles) (fun _ hX => hX) (h.quiet hp s hs)

theorem call {kind : DispatchReply -> P V Unit}
    (hkind : forall reply s, K s -> wp D (kind reply) (fun _ => R) X s)
    (envelope : Envelope) (hs : K s) :
    wp D (CallEnvelope.dispatch kind envelope) (fun _ => R) X s := by
  apply wp.seq (h.op (.mail (.replyIsClosed envelope)) rfl s hs)
  intro closed s hs
  cases closed with
  | true =>
      apply wp.seq (h.quiet (queuedFailure_uses (repertoire_has.mono rfl)) s hs)
      intro error s hs
      exact h.rejects (rejectCall_uses (repertoire_has.mono rfl) _ error) hs
  | false =>
      apply wp.seq (h.op (.mail (.beginDispatch envelope)) rfl s hs)
      intro result s hs
      cases result with
      | error error =>
          exact h.rejects (rejectCall_uses (repertoire_has.mono rfl) _ error) hs
      | ok _ => exact hkind _ s hs

theorem send (envelope : Envelope) (hs : K s) :
    wp D (SendEnvelope.dispatch envelope : P V Unit) (fun _ => R) X s := by
  apply wp.seq (h.op (.mail (.beginDispatch envelope)) rfl s hs)
  intro result s hs
  cases result with
  | error _ => exact h.rejects (dropMessage_uses (repertoire_has.mono rfl)) hs
  | ok _ => exact h.single _ s hs

theorem streamTo (envelope : Envelope) (hs : K s) :
    wp D (StreamToEnvelope.dispatch envelope : P V Unit) (fun _ => R) X s := by
  have hclosed : Keeps D K X
      (StreamToEnvelope.isClosed envelope : P V Bool) :=
    Keeps.ite (h.op (.mail (.replyIsClosed envelope)) rfl) (Keeps.pure _)
  apply wp.seq (hclosed s hs)
  intro closed s hs
  cases closed with
  | true =>
      apply wp.seq (h.quiet (queuedFailure_uses (repertoire_has.mono rfl)) s hs)
      intro error s hs
      exact h.rejects (rejectStreamTo_uses (repertoire_has.mono rfl) _ error) hs
  | false =>
      apply wp.seq (h.op (.mail (.beginDispatch envelope)) rfl s hs)
      intro result s hs
      cases result with
      | error error =>
          exact h.rejects
            (rejectStreamTo_uses (repertoire_has.mono rfl) _ error) hs
      | ok _ => exact h.single _ s hs

theorem dispatch (envelope : Envelope) (hs : K s) :
    wp D (envelope.dispatch : P V Unit) (fun _ => R) X s := by
  unfold Envelope.dispatch
  cases envelope.kind with
  | call => exact h.call h.single envelope hs
  | stream => exact h.call h.stream envelope hs
  | send => exact h.send envelope hs
  | callTo => exact h.streamTo envelope hs
  | sendTo => exact h.streamTo envelope hs

end Dispatching

/-- The operations of a turn besides its polls and dispatches. -/
def laneParts : List Part := .receives :: .exits :: selectParts

structure Turning (A : ActorConfig) (D : Discipline M) (K X : σ -> Prop) :
    Prop where
  falls : forall s, K s -> X s
  lanes : (repertoire V laneParts).Keeps D K
  unwound : Keeps D X X (perform .dropNotified : P V Unit)
  poll : forall turn, Keeps D K X (Queue.poll turn)
  mailbox : forall turn start, Keeps D K X (visit A turn start .mailbox)

theorem pollOnce_keeps {poll : P V (Poll γ)} (hpoll : Keeps D K X poll) (b : Unit) :
    Keeps D K X (pollOnce poll b) := by
  refine Keeps.bind hpoll fun r => ?_
  cases r <;> exact Keeps.pure _

namespace Turning

theorem ofDispatch (falls : forall s, K s -> X s)
    (lanes : (repertoire V laneParts).Keeps D K)
    (unwound : Keeps D X X (perform .dropNotified : P V Unit))
    (poll : forall turn, Keeps D K X (Queue.poll turn))
    (dispatch : forall envelope : Envelope, Keeps D K X envelope.dispatch) :
    Turning A D K X where
  falls := falls
  lanes := lanes
  unwound := unwound
  poll := poll
  mailbox := by
    intro turn start
    have hop : forall {α : Type} (op : Op V α),
        laneParts.contains op.part = true -> Keeps D K X (perform op) :=
      fun op hop => lanes.perform op hop
    have hcapacity : Keeps D K X (hasDispatchCapacity A : P V Bool) :=
      ((hasDispatchCapacity_uses (repertoire_has.mono rfl)).keeps
        lanes).conseq falls
    refine Keeps.bind hcapacity fun capacity => ?_
    refine Keeps.ite (Keeps.iter fun dispatched => ?_) (Keeps.pure _)
    refine Keeps.bind (hop (.mail (.pollRecv turn)) rfl) fun received => ?_
    cases received with
    | envelope envelope =>
        refine Keeps.bind (dispatch envelope) fun _ => ?_
        refine Keeps.bind (hop (.differs _) rfl) fun differs => ?_
        apply Keeps.ite
        · exact Keeps.bind (hop (.sched (.setCursor _)) rfl)
            (fun _ => Keeps.done _)
        · apply Keeps.ite (Keeps.done _)
          refine Keeps.bind hcapacity fun capacity => ?_
          exact Keeps.ite (Keeps.again _) (Keeps.done _)
    | closed => exact Keeps.done _
    | pending =>
        apply Keeps.ite
        · have hreplies : Keeps D K X (hasReplies : P V Bool) :=
            ((hasReplies_uses (repertoire_has.mono rfl)).keeps
              lanes).conseq falls
          refine Keeps.bind hreplies fun replies => ?_
          exact Keeps.ite (Keeps.done _) (Keeps.done _)
        · exact Keeps.done _

variable (h : Turning (V := V) A D K X)

include h

theorem quiet {p : P V α} (hp : p.Uses (repertoire V laneParts)) :
    Keeps D K X p :=
  (hp.keeps h.lanes).conseq h.falls

theorem op (op : Op V α) (hop : laneParts.contains op.part = true) :
    Keeps D K X (perform op) :=
  h.lanes.perform op hop

theorem replyLane (turn : TurnContext) :
    Keeps D K X (replyLane turn : P V Visit) := by
  refine Keeps.bind (h.poll turn) fun result => ?_
  cases result with
  | budgetExhausted =>
      exact Keeps.bind (h.op (.sched (.setCursor _)) rfl)
        (fun _ => Keeps.pure _)
  | _ => exact Keeps.pure _

theorem pollChild : Keeps D K X (pollChild : P V (Poll SchedulerTurn)) := by
  refine Keeps.bind (h.op (.kin .pollExit) rfl) fun event => ?_
  cases event <;> exact Keeps.pure _

theorem visit (turn : TurnContext) (start lane : ReplyLane) :
    Keeps D K X (visit A turn start lane) := by
  cases lane with
  | mailbox => exact h.mailbox turn start
  | reply =>
      refine Keeps.bind (h.quiet (hasReplies_uses
        (repertoire_has.mono rfl))) fun replies => ?_
      exact Keeps.ite (h.replyLane turn) (Keeps.pure _)
  | childExit =>
      refine Keeps.bind h.pollChild fun result => ?_
      cases result <;> exact Keeps.pure _

theorem pollLanes (turn : TurnContext) (start : ReplyLane) :
    Keeps D K X (pollLanes A turn start) := by
  apply Keeps.iter
  intro lane
  refine Keeps.bind (h.op (.differs _) rfl) fun differs => ?_
  apply Keeps.ite (Keeps.done _)
  refine Keeps.bind (h.visit turn start lane) fun visit => ?_
  cases visit with
  | leave result => exact Keeps.done _
  | selected selected =>
      exact Keeps.bind (h.op (.sched (.setCursor _)) rfl)
        (fun _ => Keeps.done _)
  | nothing =>
      apply Keeps.ite
      · exact Keeps.bind (h.op (.sched (.setCursor _)) rfl)
          (fun _ => Keeps.done _)
      · exact Keeps.again _

theorem pollTurn (turn : TurnContext) :
    Keeps D K X (pollTurn A turn : P V (Poll SchedulerTurn)) := by
  unfold Loac.pollTurn
  cases A.mailbox with
  | none =>
      refine Keeps.bind (h.op (.differs _) rfl) fun differs => ?_
      exact Keeps.ite (Keeps.pure _) h.pollChild
  | some _ =>
      refine Keeps.bind (h.op (.differs _) rfl) fun differs => ?_
      apply Keeps.ite (Keeps.pure _)
      refine Keeps.bind (h.quiet (isLeased_uses
        (repertoire_has.mono rfl))) fun leased => ?_
      apply Keeps.ite
      · refine Keeps.bind (h.poll turn) fun result => ?_
        cases result <;> exact Keeps.pure _
      · exact Keeps.bind (h.op (.sched .cursor) rfl) (h.pollLanes turn)

theorem select {site : Site} (hsite : site.part = .parks) (start : β)
    {poll : β -> P V (β ⊕ γ)} (hpoll : forall b, Keeps D K X (poll b)) :
    Keeps D K X (select site start poll) := by
  have hsuspend : Keeps D K X (suspend site : P V Unit) :=
    h.op (.suspend site) (by
      show laneParts.contains site.part = true
      rw [hsite]
      rfl)
  refine Keeps.onExit (Keeps.iter fun b => ?_) (h.op .dropNotified rfl)
    h.unwound
  refine Keeps.bind (h.op .pollNotified rfl) fun notified => ?_
  apply Keeps.ite (Keeps.done _)
  refine Keeps.bind (hpoll b) fun r => ?_
  cases r with
  | inl _ => exact Keeps.bind hsuspend (fun _ => Keeps.again _)
  | inr _ => exact Keeps.done _

theorem actorTurn (turn : TurnContext) :
    Keeps D K X (actorTurn A turn : P V SchedulerTurn) := by
  refine Keeps.bind (h.select rfl () (pollOnce_keeps (h.pollTurn turn)))
    fun r => ?_
  cases r <;> exact Keeps.pure _

theorem isIdle : Keeps D K X (isIdle A : P V Bool) :=
  h.quiet (isIdle_uses (repertoire_has.mono rfl))

theorem drainTurn (receiveMessages : Bool) :
    Keeps D K X (drainTurn A receiveMessages : P V DrainTurn) := by
  refine Keeps.bind h.isIdle fun idle => ?_
  apply Keeps.ite (Keeps.pure _)
  exact Keeps.bind (h.actorTurn _) (fun _ => Keeps.pure _)

theorem finishRepliesTurn :
    Keeps D K X (finishRepliesTurn A : P V Unit) := by
  have hpolls : forall turn : TurnContext,
      Keeps D K X (pollActorReplies A turn : P V (Poll Unit)) := by
    intro turn
    unfold pollActorReplies
    cases A.mailbox with
    | none => exact Keeps.pure _
    | some _ =>
        refine Keeps.bind (h.poll turn) fun result => ?_
        cases result <;> exact Keeps.pure _
  exact Keeps.bind (h.select rfl () (pollOnce_keeps (hpolls _)))
    (fun _ => Keeps.pure _)

end Turning

/-!
## Steady properties
-/

/-- Everything that neither polls, dispatches nor drops replies. -/
def steadyParts : List Part :=
  [.looks, .notified, .parks, .yields, .marks, .errs, .fails, .enters, .gate,
    .lives, .answers, .values, .receives, .closes, .discards, .exits, .reaps,
    .asks, .waits, .init, .retires, .shutdown, .hook, .stop]

theorem leads_same (turn : SchedulerTurn) : turn.Leads K K = K := by
  cases turn <;> rfl

theorem drainLeads_same (turn : DrainTurn) : turn.Leads K K K = K := by
  cases turn with
  | scheduled turn => exact leads_same turn
  | repliesFinished => rfl

/-- What everything keeps but a poll or a dispatch that unwinds. -/
theorem spine_of_steady (hturning : Turning (V := V) A D K X)
    (hsteady : (repertoire V steadyParts).Keeps D K)
    (hloose : (repertoire V looseParts).Keeps D X) :
    Spine A D K K K K X (fun _ => K) := by
  have hkeeps : forall {α : Type} {p : P V α},
      p.Uses (repertoire V steadyParts) -> Keeps D K X p :=
    fun hp => (hp.keeps hsteady).conseq hturning.falls
  exact {
    falls := hturning.falls
    waits := hturning.falls
    calm := repertoire_mono hsteady rfl
    loose := hloose
    kill := (killActor_uses repertoire_has).keeps hloose
    fail := (failActor_uses repertoire_has).keeps hloose
    init := hkeeps (runInit_uses (repertoire_has.mono rfl))
    running := by
      intro s hs
      apply wp.mono _ (fun _ hX => hX) (hturning.actorTurn runningTurn s hs)
      intro turn s hs
      rw [leads_same]
      exact hs
    hook := fun event s hs =>
      hkeeps (handleChildExit_uses (repertoire_has.mono rfl) event) s hs
    shutdown := fun shutdown =>
      hkeeps (callUser_uses (repertoire_has.mono rfl))
    empties := fun _ => hkeeps (repertoire_has.perform rfl)
    draining := by
      intro drained s hs
      apply wp.mono _ (fun _ hX => hX) (hturning.drainTurn (!drained) s hs)
      intro turn s hs
      rw [drainLeads_same]
      exact hs
    discards := hkeeps (closeAndDiscard_uses (repertoire_has.mono rfl) true _)
    idle := by
      intro s hs
      apply wp.mono _ (fun _ hX => hX) (hturning.isIdle s hs)
      intro idle s hs
      cases idle <;> exact hs
    modes := hkeeps (repertoire_has.perform rfl)
    stopping := hturning.finishRepliesTurn
    graceful := by
      intro shutdown reason s hs
      apply wp.mono _ (fun _ hX => hX) (hkeeps
        (gracefulFinish_uses (repertoire_has.mono rfl) shutdown reason) s hs)
      exact fun _ => hturning.falls }

end Turns

end Loac

import Loac.Interleave.Vocabulary
import Loac.Runtime.Lifetime

/-!
# The operations that code uses

The operations are sorted into parts, and each piece of the runtime uses only
the operations of a few parts.
-/

namespace Loac

open Interleave Interleave.Prog

variable {V α β γ : Type}

inductive Part where
  /-- Reads, and wakes of the actor task. -/
  | looks
  | notified
  /-- A suspension at which the task waits for its own progress only. -/
  | yields
  /-- A wait that a lifecycle change ends. -/
  | parks
  | marks
  /-- Marks of places that are never reached. -/
  | errs
  | fails
  | enters
  | gate
  | ends
  | lives
  | answers
  | values
  | drops
  | polls
  | takes
  | removes
  | constructs
  | places
  | receives
  | closes
  | discards
  | exits
  | reaps
  | asks
  | waits
  | init
  | retires
  | shutdown
  | hook
  | stop
deriving DecidableEq

def UserSite.part : UserSite -> Part
  | .initCall => .init
  | .initPoll => .init
  | .args => .retires
  | .initDrop => .retires
  | .actor _ => .retires
  | .hookDrop _ => .retires
  | .stopDrop _ => .retires
  | .onShutdown _ => .shutdown
  | .hookPoll _ => .hook
  | .stopPoll _ => .stop
  | .construct _ => .constructs
  | .replyPoll _ => .polls
  | .replyDrop _ _ => .drops
  | .message => .values
  | .writer => .values
  | .value => .values
  | .finalSend => .values
  | .responseWaker => .values
  | .capacityWaker => .values
  | .modeWaker => .values

def Site.part : Site -> Part
  | .start => .yields
  | .discard _ => .yields
  | .waitAll _ => .yields
  | .init => .parks
  | .turn _ => .parks
  | .hook _ => .parks
  | .finishReplies => .parks
  | .children => .parks
  | .onStop _ => .parks

def Point.part : Point -> Part
  | .inboxClosed => .errs
  | .impossibleMode => .errs
  | .hardWait => .marks
  | .gracefulFinish _ => .marks
  | .unwound => .marks

def SchedOp.part : SchedOp α -> Part
  | .held => .looks
  | .length => .looks
  | .isEmpty => .looks
  | .cursor => .looks
  | .setCursor _ => .looks
  | .find _ => .looks
  | .readyIsEmpty _ => .looks
  | .takeReady _ => .takes
  | .register _ => .takes
  | .popReady => .takes
  | .takeReply _ => .takes
  | .takeFinal _ => .takes
  | .forceRelease => .removes
  | .remove _ => .removes
  | .drain => .removes
  | .reserve => .places
  | .markReady _ => .places
  | .place _ _ => .places

def MailOp.part : MailOp V α -> Part
  | .isEmpty => .looks
  | .close => .closes
  | .pollRecv _ => .receives
  | .replyIsClosed _ => .receives
  | .beginDispatch _ => .receives
  | .tryRecv => .discards
  | .beginCompletion _ => .answers
  | .respond _ _ => .answers

def KinOp.part : KinOp α -> Part
  | .actors => .looks
  | .subtree => .looks
  | .pollExit => .exits
  | .reap _ => .reaps
  | .request _ _ => .asks
  | .wait _ => .waits
  | .clear => .waits

def Op.part : Op V α -> Part
  | .mode => .looks
  | .differs _ => .looks
  | .wakeTask => .looks
  | .pollNotified => .parks
  | .dropNotified => .notified
  | .suspend site => site.part
  | .reach point => point.part
  | .transact .beginFailure => .fails
  | .transact .beginInitialization => .enters
  | .transact .beginChildHook => .gate
  | .transact _ => .ends
  | .user site => site.part
  | .sched op => op.part
  | .mail op => op.part
  | .kin op => op.part
  | .spawn => .lives
  | .start => .lives
  | .publish _ => .lives

def Has (S : Vocabulary (Op V)) (parts : List Part) : Prop :=
  forall {α : Type} (op : Op V α), parts.contains op.part = true -> S.uses op

variable {S : Vocabulary (Op V)} {parts : List Part}

theorem Has.mono {few : List Part} (h : Has S parts)
    (hsub : (few.all parts.contains) = true) : Has S few := by
  intro α op hop
  apply h op
  have hall := List.all_eq_true.mp hsub
  exact hall _ (List.contains_iff_mem.mp hop)

theorem Has.perform (h : Has S parts) {op : Op V α}
    (hop : parts.contains op.part = true) : (Prog.perform op).Uses S :=
  Within.perform (h op hop) (fun _ _ => trivial)

/-!
## Steering

The scheduler goes its way by operations that nothing below it uses.
-/

def Op.steers : Op V α -> Bool
  | .sched (.setCursor _) => true
  | .sched (.readyIsEmpty _) => true
  | .sched .popReady => true
  | .sched (.takeReady _) => true
  | .mail (.pollRecv _) => true
  | .kin .pollExit => true
  | .wakeTask => true
  | _ => false

def HasCalm (S : Vocabulary (Op V)) (parts : List Part) : Prop :=
  forall {α : Type} (op : Op V α), parts.contains op.part = true ->
    op.steers = false -> S.uses op

theorem Has.calm (h : Has S parts) : HasCalm S parts :=
  fun op hop _ => h op hop

theorem HasCalm.mono {few : List Part} (h : HasCalm S parts)
    (hsub : (few.all parts.contains) = true) : HasCalm S few := by
  intro α op hop
  apply h op
  have hall := List.all_eq_true.mp hsub
  exact hall _ (List.contains_iff_mem.mp hop)

theorem HasCalm.perform (h : HasCalm S parts) {op : Op V α}
    (hop : parts.contains op.part = true) (hsteers : op.steers = false) :
    (Prog.perform op).Uses S :=
  Within.perform (h op hop hsteers) (fun _ _ => trivial)

/-!
## User code and containment
-/

theorem runUser_calm {site : UserSite} (h : HasCalm S [site.part]) :
    (runUser site : P V (Option V)).Uses S := by
  apply Within.repeated
  intro _
  refine Within.seq (h.perform (by simp [Op.part]) rfl) fun step => ?_
  cases step with
  | continues => trivial
  | returns value => trivial
  | panics => trivial

theorem runUser_uses {site : UserSite} (h : Has S [site.part]) :
    (runUser site : P V (Option V)).Uses S :=
  runUser_calm h.calm

theorem callUser_calm {site : UserSite} (h : HasCalm S [site.part]) :
    (callUser site : P V Unit).Uses S :=
  Within.seq (runUser_calm h) (fun _ => trivial)

theorem callUser_uses {site : UserSite} (h : Has S [site.part]) :
    (callUser site : P V Unit).Uses S :=
  callUser_calm h.calm

theorem pollUser_uses {site : UserSite} (h : Has S [site.part]) :
    (pollUser site : P V (Unit ⊕ Unit)).Uses S := by
  refine Within.seq (runUser_uses h) fun value => ?_
  cases value <;> trivial

theorem containPanic_calm (h : HasCalm S [.fails]) :
    (containPanic : P V Unit).Uses S :=
  h.perform rfl rfl

theorem containPanic_uses (h : Has S [.fails]) :
    (containPanic : P V Unit).Uses S :=
  containPanic_calm h.calm

theorem dropUserValue_calm (h : HasCalm S [.fails]) {value : P V Unit}
    (hvalue : value.Uses S) : (dropUserValue value).Uses S := by
  refine Within.bind hvalue.attempt fun r _ => ?_
  cases r with
  | none => exact containPanic_calm h
  | some _ => trivial

theorem dropUserValue_uses (h : Has S [.fails]) {value : P V Unit}
    (hvalue : value.Uses S) : (dropUserValue value).Uses S :=
  dropUserValue_calm h.calm hvalue

theorem containUnwind_uses {contained : P V Unit} (h : contained.Uses S) :
    (containUnwind contained).Uses S :=
  Within.bind h.attempt (fun _ _ => trivial)

theorem callFailure_calm (h : HasCalm S [.looks]) (phase : CallPhase) :
    (callFailure phase : P V CallError).Uses S :=
  Within.seq (h.perform rfl rfl) (fun _ => trivial)

/-!
## Replies
-/

def answerParts : List Part := [.looks, .fails, .answers, .values]

def payingParts : List Part := [.fails, .answers, .values]

theorem dropValue_calm (h : HasCalm S payingParts) {site : UserSite}
    (hsite : site.part = .values) :
    (dropUserValue (callUser site) : P V Unit).Uses S :=
  dropUserValue_calm (h.mono rfl) (callUser_calm (by
    rw [hsite]
    exact h.mono rfl))

theorem notifyResponse_calm (h : HasCalm S payingParts) (id : Nat)
    (response : Response V) : (notifyResponse id response).Uses S := by
  refine Within.seq (h.perform rfl rfl) fun received => ?_
  cases received with
  | true => exact containUnwind_uses (callUser_calm (h.mono rfl))
  | false =>
      cases response with
      | ok _ => exact dropValue_calm h rfl
      | error _ => trivial

theorem completeReply_calm (h : HasCalm S payingParts) (reply : DispatchReply)
    (response : Option V) : (reply.complete response).Uses S := by
  cases reply with
  | caller id =>
      refine Within.seq (h.perform rfl rfl) fun result => ?_
      cases result with
      | ok _ => exact notifyResponse_calm h id _
      | error _ =>
          exact Within.seq (notifyResponse_calm h id _)
            (fun _ => dropValue_calm h rfl)
  | oneWay id =>
      exact Within.seq (h.perform rfl rfl) (fun _ => dropValue_calm h rfl)

theorem completeReply_uses (h : Has S payingParts) (reply : DispatchReply)
    (response : Option V) : (reply.complete response).Uses S :=
  completeReply_calm h.calm reply response

theorem dropReply_calm (h : HasCalm S answerParts) (reply : DispatchReply) :
    (reply.drop : P V Unit).Uses S := by
  have hfail : (DispatchReply.fail : P V CallError).Uses S :=
    Within.seq (h.perform rfl rfl) (fun _ => callFailure_calm (h.mono rfl) _)
  cases reply with
  | caller id =>
      exact Within.seq hfail (fun _ => notifyResponse_calm (h.mono rfl) id _)
  | oneWay _ => exact Within.seq hfail (fun _ => trivial)

theorem dropReply_uses (h : Has S answerParts) (reply : DispatchReply) :
    (reply.drop : P V Unit).Uses S :=
  dropReply_calm h.calm reply

theorem dropScheduled_calm (h : HasCalm S (.drops :: answerParts)) (key : Key)
    (cleared : Bool) (scheduled : ScheduledFuture) :
    (scheduled.drop key cleared : P V Unit).Uses S := by
  have hanswer : HasCalm S answerParts := h.mono rfl
  have hdrop : (callUser (.replyDrop key cleared) : P V Unit).Uses S :=
    callUser_calm (h.mono rfl)
  unfold ScheduledFuture.drop
  split
  · exact Within.seq (dropReply_calm hanswer _) (fun _ => hdrop)
  · exact hdrop
  · exact Within.onExit hdrop (callUser_calm (h.mono rfl))
  · exact hdrop

theorem dropScheduled_uses (h : Has S (.drops :: answerParts)) (key : Key)
    (cleared : Bool) (scheduled : ScheduledFuture) :
    (scheduled.drop key cleared : P V Unit).Uses S :=
  dropScheduled_calm h.calm key cleared scheduled

/-!
## The ready queue
-/

def pollParts : List Part := [.fails, .answers, .values, .polls, .takes]

def clearParts : List Part :=
  [.looks, .fails, .answers, .values, .drops, .removes]

def replyParts : List Part :=
  [.looks, .fails, .answers, .values, .drops, .polls, .takes, .removes]

theorem pollWithTask_calm (h : HasCalm S pollParts) (key : Key)
    (scheduled : ScheduledFuture) :
    (scheduled.pollWithTask key : P V Bool).Uses S := by
  have hpoll : (runUser (.replyPoll key) : P V (Option V)).Uses S :=
    runUser_calm (h.mono rfl)
  refine Within.seq (h.perform rfl rfl) fun _ => ?_
  cases scheduled.future with
  | completeReply _ =>
      refine Within.seq hpoll fun value => ?_
      cases value with
      | none => trivial
      | some value =>
          refine Within.seq (h.perform rfl rfl) fun reply => ?_
          cases reply with
          | none => trivial
          | some reply =>
              exact Within.seq (completeReply_calm (h.mono rfl) reply _)
                (fun _ => trivial)
  | finishStream _ =>
      refine Within.seq hpoll fun value => ?_
      cases value with
      | none => trivial
      | some _ =>
          refine Within.seq (h.perform rfl rfl) fun final => ?_
          exact Within.seq (Within.onlyIf (callUser_calm (h.mono rfl)))
            (fun _ => trivial)

theorem pollWithTask_uses (h : Has S replyParts) (key : Key)
    (scheduled : ScheduledFuture) :
    (scheduled.pollWithTask key : P V Bool).Uses S :=
  pollWithTask_calm (HasCalm.mono h.calm rfl) key scheduled

theorem complete_calm (h : HasCalm S clearParts) (key : Key) :
    (Queue.complete key : P V Unit).Uses S := by
  have hremove : (Queue.remove key : P V Unit).Uses S := by
    refine Within.seq (h.perform rfl rfl) fun scheduled => ?_
    cases scheduled with
    | none => trivial
    | some scheduled =>
        exact dropUserValue_calm (h.mono rfl)
          (dropScheduled_calm (h.mono rfl) key false scheduled)
  refine Within.seq hremove fun _ => ?_
  refine Within.seq (h.perform rfl rfl) fun held => ?_
  exact Within.onlyIf (h.perform rfl rfl)

theorem complete_uses (h : Has S replyParts) (key : Key) :
    (Queue.complete key : P V Unit).Uses S :=
  complete_calm (HasCalm.mono h.calm rfl) key

theorem pollLeased_uses (h : Has S replyParts) (turn : TurnContext)
    (key : Key) : (Queue.pollLeased turn key : P V ReplyPoll).Uses S := by
  refine Within.seq (h.perform rfl) fun scheduled => ?_
  cases scheduled with
  | none => exact Within.seq (h.perform rfl) (fun _ => trivial)
  | some scheduled =>
      refine Within.seq (h.perform rfl) fun ready => ?_
      refine Within.ite ?_ trivial
      refine Within.seq (pollWithTask_uses h key scheduled) fun ready => ?_
      refine Within.seq (h.perform rfl) fun held => ?_
      refine Within.seq (h.perform rfl) fun differs => ?_
      apply Within.ite (by trivial)
      apply Within.ite
      · exact Within.seq (complete_uses h key) (fun _ => trivial)
      · exact Within.ite trivial trivial

theorem drain_uses (h : Has S replyParts) (turn : TurnContext) :
    (Queue.drain turn : P V (Option Bool)).Uses S := by
  apply Within.repeated
  intro state
  refine Within.ite ?_ trivial
  refine Within.seq (h.perform rfl) fun differs => ?_
  apply Within.ite (by trivial)
  refine Within.seq (h.perform rfl) fun key => ?_
  cases key with
  | none => trivial
  | some key =>
      refine Within.seq (h.perform rfl) fun scheduled => ?_
      cases scheduled with
      | none => trivial
      | some scheduled =>
          refine Within.seq (h.perform rfl) fun ready => ?_
          refine Within.ite ?_ trivial
          refine Within.seq (pollWithTask_uses h key scheduled) fun ready => ?_
          apply Within.ite
          · exact Within.seq (complete_uses h key) (fun _ => trivial)
          · refine Within.seq (h.perform rfl) fun held => ?_
            exact Within.ite trivial trivial

theorem pollQueue_uses (h : Has S replyParts) (turn : TurnContext) :
    (Queue.poll turn : P V ReplyPoll).Uses S := by
  refine Within.seq (h.perform rfl) fun held => ?_
  cases held with
  | some key => exact pollLeased_uses h turn key
  | none =>
      refine Within.seq (drain_uses h turn) fun completed => ?_
      cases completed with
      | none => trivial
      | some completed =>
          refine Within.seq (h.perform rfl) fun differs => ?_
          apply Within.ite (by trivial)
          refine Within.seq (h.perform rfl) fun empty => ?_
          apply Within.ite
          · exact Within.ite trivial trivial
          · exact Within.seq (h.perform rfl) (fun _ => trivial)

theorem clearQueue_uses (h : Has S clearParts) :
    (Queue.clear : P V Unit).Uses S := by
  refine Within.seq (Within.repeated fun _ => ?_) fun _ => h.perform rfl
  refine Within.seq (h.perform rfl) fun entry => ?_
  cases entry with
  | none => trivial
  | some entry =>
      exact Within.seq (dropUserValue_uses (h.mono rfl)
        (dropScheduled_uses (h.mono rfl) entry.1 true entry.2))
        (fun _ => trivial)

theorem dropQueue_uses (h : Has S clearParts) :
    (Queue.drop : P V Unit).Uses S := by
  refine Within.seq (Within.repeated fun _ => ?_) fun _ => h.perform rfl
  refine Within.seq (h.perform rfl) fun entry => ?_
  cases entry with
  | none => trivial
  | some entry =>
      exact Within.seq (containUnwind_uses
        (dropScheduled_uses (h.mono rfl) entry.1 false entry.2))
        (fun _ => trivial)

end Loac

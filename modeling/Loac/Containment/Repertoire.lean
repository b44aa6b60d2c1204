import Loac.Containment.Parts

/-!
# The operations of turns and teardowns

Which parts the larger pieces of the runtime use, and that a hard teardown
proposes a hard reason.
-/

namespace Loac

open Interleave Interleave.Prog

variable {V α β γ : Type} {A : ActorConfig} {S : Vocabulary (Op V)}

/-!
## Dispatch
-/

def dispatchParts : List Part :=
  [.looks, .fails, .answers, .values, .constructs, .places, .receives]

theorem scheduleReply_calm (h : HasCalm S dispatchParts) (reply : DispatchReply) :
    (scheduleReply reply : P V Unit).Uses S := by
  refine Within.seq (h.perform rfl rfl) fun key => ?_
  refine Within.seq ?_ fun future =>
    Within.seq (h.perform rfl rfl) (fun _ => h.perform rfl rfl)
  refine Within.bind (callUser_calm (h.mono rfl)).attempt fun r _ => ?_
  cases r with
  | some _ => trivial
  | none =>
      exact Within.seq (dropReply_calm (h.mono rfl) reply)
        (fun _ => Within.throw)

theorem dispatchStream_calm (h : HasCalm S dispatchParts) (reply : DispatchReply) :
    (StreamKind.dispatch reply : P V Unit).Uses S := by
  refine Within.seq (completeReply_calm (h.mono rfl) reply none) fun _ => ?_
  refine Within.seq (h.perform rfl rfl) fun key => ?_
  refine Within.seq (Within.seq (callUser_calm (h.mono rfl))
    (fun _ => Within.pure trivial)) fun future => ?_
  exact Within.seq (h.perform rfl rfl) (fun _ => h.perform rfl rfl)

theorem dropMessage_calm (h : HasCalm S answerParts) :
    (dropUserValue (callUser .message) : P V Unit).Uses S :=
  dropValue_calm (h.mono rfl) rfl

theorem dropMessage_uses (h : Has S answerParts) :
    (dropUserValue (callUser .message) : P V Unit).Uses S :=
  dropMessage_calm h.calm

theorem rejectCall_calm (h : HasCalm S answerParts) (envelope : Envelope)
    (error : CallError) :
    (CallEnvelope.reject envelope error : P V Unit).Uses S :=
  Within.seq (notifyResponse_calm (h.mono rfl) _ _) (fun _ => dropMessage_calm h)

theorem rejectCall_uses (h : Has S answerParts) (envelope : Envelope)
    (error : CallError) :
    (CallEnvelope.reject envelope error : P V Unit).Uses S :=
  rejectCall_calm h.calm envelope error

theorem rejectStreamTo_calm (h : HasCalm S answerParts) (envelope : Envelope)
    (error : CallError) :
    (StreamToEnvelope.reject envelope error : P V Unit).Uses S :=
  Within.seq (Within.onlyIf (notifyResponse_calm (h.mono rfl) _ _)) fun _ =>
    Within.seq (dropMessage_calm h) (fun _ => dropValue_calm (h.mono rfl) rfl)

theorem rejectStreamTo_uses (h : Has S answerParts) (envelope : Envelope)
    (error : CallError) :
    (StreamToEnvelope.reject envelope error : P V Unit).Uses S :=
  rejectStreamTo_calm h.calm envelope error

theorem queuedFailure_calm (h : HasCalm S answerParts) :
    (queuedFailure : P V CallError).Uses S :=
  callFailure_calm (h.mono rfl) _

theorem queuedFailure_uses (h : Has S answerParts) :
    (queuedFailure : P V CallError).Uses S :=
  queuedFailure_calm h.calm

theorem dispatchCall_calm (h : HasCalm S dispatchParts)
    {kind : DispatchReply -> P V Unit} (hkind : forall reply, (kind reply).Uses S)
    (envelope : Envelope) : (CallEnvelope.dispatch kind envelope).Uses S := by
  have hanswer : HasCalm S answerParts := h.mono rfl
  refine Within.seq (h.perform rfl rfl) fun closed => ?_
  apply Within.ite
  · exact Within.seq (queuedFailure_calm hanswer)
      (fun error => rejectCall_calm hanswer envelope error)
  · refine Within.seq (h.perform rfl rfl) fun result => ?_
    cases result with
    | error error => exact rejectCall_calm hanswer envelope error
    | ok _ => exact hkind _

theorem dispatchSend_calm (h : HasCalm S dispatchParts) (envelope : Envelope) :
    (SendEnvelope.dispatch envelope : P V Unit).Uses S := by
  refine Within.seq (h.perform rfl rfl) fun result => ?_
  cases result with
  | error _ => exact dropMessage_calm (h.mono rfl)
  | ok _ => exact scheduleReply_calm h _

theorem dispatchStreamTo_calm (h : HasCalm S dispatchParts) (envelope : Envelope) :
    (StreamToEnvelope.dispatch envelope : P V Unit).Uses S := by
  have hanswer : HasCalm S answerParts := h.mono rfl
  have hclosed : (StreamToEnvelope.isClosed envelope : P V Bool).Uses S :=
    Within.ite (h.perform rfl rfl) trivial
  refine Within.seq hclosed fun closed => ?_
  apply Within.ite
  · exact Within.seq (queuedFailure_calm hanswer)
      (fun error => rejectStreamTo_calm hanswer envelope error)
  · refine Within.seq (h.perform rfl rfl) fun result => ?_
    cases result with
    | error error => exact rejectStreamTo_calm hanswer envelope error
    | ok _ => exact scheduleReply_calm h _

theorem dispatch_calm (h : HasCalm S dispatchParts) (envelope : Envelope) :
    (envelope.dispatch : P V Unit).Uses S := by
  unfold Envelope.dispatch
  cases envelope.kind with
  | call => exact dispatchCall_calm h (scheduleReply_calm h) envelope
  | stream => exact dispatchCall_calm h (dispatchStream_calm h) envelope
  | send => exact dispatchSend_calm h envelope
  | callTo => exact dispatchStreamTo_calm h envelope
  | sendTo => exact dispatchStreamTo_calm h envelope

theorem dispatch_uses (h : Has S dispatchParts) (envelope : Envelope) :
    (envelope.dispatch : P V Unit).Uses S :=
  dispatch_calm h.calm envelope

theorem discard_uses (h : Has S answerParts) (envelope : Envelope) :
    (envelope.discard : P V Unit).Uses S := by
  have hfailure := queuedFailure_uses h
  unfold Envelope.discard
  cases envelope.kind with
  | send => exact dropMessage_uses h
  | callTo =>
      exact Within.seq hfailure
        (fun error => rejectStreamTo_uses h envelope error)
  | sendTo =>
      exact Within.seq hfailure
        (fun error => rejectStreamTo_uses h envelope error)
  | call =>
      exact Within.seq hfailure (fun error => rejectCall_uses h envelope error)
  | stream =>
      exact Within.seq hfailure (fun error => rejectCall_uses h envelope error)

/-!
## Lanes
-/

def turnParts : List Part :=
  .exits :: .constructs :: .places :: .receives :: replyParts

theorem hasReplies_uses (h : Has S [.looks]) :
    (hasReplies : P V Bool).Uses S :=
  Within.seq (h.perform rfl) (fun _ => trivial)

theorem isLeased_uses (h : Has S [.looks]) :
    (Queue.isLeased : P V Bool).Uses S :=
  Within.seq (h.perform rfl) (fun _ => trivial)

theorem hasDispatchCapacity_uses (h : Has S [.looks]) :
    (hasDispatchCapacity A : P V Bool).Uses S :=
  Within.seq (isLeased_uses h)
    fun _ => Within.seq (h.perform rfl) (fun _ => trivial)

theorem isIdle_uses (h : Has S [.looks]) : (isIdle A : P V Bool).Uses S := by
  unfold isIdle
  cases A.mailbox with
  | none => trivial
  | some _ => exact h.perform rfl

theorem pollActorReplies_uses (h : Has S replyParts) (turn : TurnContext) :
    (pollActorReplies A turn : P V (Poll Unit)).Uses S := by
  unfold pollActorReplies
  cases A.mailbox with
  | none => trivial
  | some _ =>
      refine Within.seq (pollQueue_uses h turn) fun result => ?_
      cases result <;> trivial

/-!
## Children
-/

theorem requestAll_uses (h : Has S [.looks, .asks]) (shutdown : Shutdown) :
    (ChildSet.requestAll shutdown : P V Unit).Uses S :=
  Within.seq (h.perform rfl)
    (fun _ => Within.forEach (fun _ => h.perform rfl))

theorem dropChildren_uses (h : Has S [.looks, .asks]) :
    (ChildSet.drop : P V Unit).Uses S :=
  Within.seq (h.perform rfl)
    (fun _ => Within.forEach (fun _ => h.perform rfl))

theorem pollWait_uses (h : Has S [.waits]) (keys : List Key) :
    (ChildSet.pollWait keys : P V (List Key ⊕ Unit)).Uses S := by
  induction keys with
  | nil => exact Within.seq (h.perform rfl) (fun _ => trivial)
  | cons key rest ih =>
      refine Within.seq (h.perform rfl) fun exited => ?_
      exact Within.ite ih trivial

theorem terminalStatus_uses (h : Has S [.looks]) (reason : ExitReason) :
    (ChildSet.terminalStatus reason : P V ExitStatus).Uses S :=
  Within.seq (h.perform rfl) (fun _ => trivial)

/-!
## Teardown
-/

def teardownParts : List Part :=
  [.looks, .fails, .answers, .values, .drops, .removes, .closes, .discards,
    .asks, .waits, .yields, .marks]

theorem waitAll_uses (h : Has S teardownParts) (initialized : Bool) :
    (ChildSet.waitAll (.waitAll initialized) : P V Unit).Uses S := by
  refine Within.seq (h.perform rfl) fun keys => ?_
  apply Within.repeated
  intro keys
  refine Within.seq (pollWait_uses (h.mono rfl) keys) fun r => ?_
  cases r with
  | inl _ => exact Within.seq (h.perform rfl) (fun _ => trivial)
  | inr _ => trivial

theorem tryDiscard_uses (h : Has S (.discards :: answerParts)) :
    (ActorInbox.tryDiscard : P V Bool).Uses S := by
  refine Within.seq (h.perform rfl) fun envelope => ?_
  cases envelope with
  | none => trivial
  | some envelope =>
      exact Within.seq (discard_uses (h.mono rfl) envelope) (fun _ => trivial)

def discardingParts : List Part :=
  .closes :: .discards :: .yields :: answerParts

theorem closeAndDiscard_uses (h : Has S discardingParts) (initialized : Bool)
    (expectedMode : Mode) :
    (closeAndDiscard initialized expectedMode : P V DiscardOutcome).Uses S := by
  refine Within.seq (h.perform rfl) fun _ => ?_
  apply Within.repeated
  intro dropped
  refine Within.seq (h.perform rfl) fun differs => ?_
  apply Within.ite (by trivial)
  refine Within.seq (tryDiscard_uses (h.mono rfl)) fun discarded => ?_
  refine Within.ite ?_ trivial
  refine Within.seq (h.perform rfl) fun differs => ?_
  apply Within.ite (by trivial)
  apply Within.ite
  · exact Within.seq (h.perform rfl)
      (fun _ => Within.seq (h.perform rfl) (fun _ => trivial))
  · trivial

theorem closeDiscarded_uses (h : Has S teardownParts) (initialized : Bool)
    (expectedMode : Mode) :
    (closeDiscarded initialized expectedMode : P V Unit).Uses S := by
  apply Within.repeated
  intro expectedMode
  refine Within.seq (closeAndDiscard_uses (h.mono rfl) initialized expectedMode)
    fun outcome => ?_
  cases outcome with
  | complete => trivial
  | modeChanged => exact Within.seq (h.perform rfl) (fun _ => trivial)

theorem clear_uses (h : Has S clearParts) :
    (clear A : P V Unit).Uses S := by
  unfold clear
  cases A.mailbox with
  | none => trivial
  | some _ => exact clearQueue_uses h

def ExitReason.isHard : ExitReason -> Bool
  | .stopped => false
  | .drained => false
  | _ => true

def ProposesHard (status : ExitStatus) : Prop :=
  status.reason.isHard = true

theorem terminalStatus_hard (h : Has S [.looks]) {reason : ExitReason}
    (hhard : reason.isHard = true) :
    Within S (ChildSet.terminalStatus reason) ProposesHard := by
  refine Within.seq (h.perform rfl) fun subtree => ?_
  show (ExitStatus.new reason subtree).reason.isHard = true
  rw [ExitStatus.reason_new]
  exact hhard

theorem killActor_hard (h : Has S teardownParts) :
    Within S (killActor A) ProposesHard :=
  Within.seq (h.perform rfl) fun _ =>
    Within.seq (requestAll_uses (h.mono rfl) .kill) fun _ =>
      Within.seq (clear_uses (h.mono rfl)) fun _ =>
        Within.seq (closeDiscarded_uses h true _) fun _ =>
          Within.seq (h.perform rfl) fun _ =>
            Within.seq (waitAll_uses h true) fun _ =>
              terminalStatus_hard (h.mono rfl) rfl

theorem failWith_hard (h : Has S teardownParts) {reason : ExitReason}
    (hhard : reason.isHard = true) :
    Within S (failWith A reason) ProposesHard :=
  Within.seq (h.perform rfl) fun _ =>
    Within.seq (requestAll_uses (h.mono rfl) .kill) fun _ =>
      Within.seq (clear_uses (h.mono rfl)) fun _ =>
        Within.seq (h.perform rfl) fun _ =>
          Within.seq (closeDiscarded_uses h true _) fun _ =>
            Within.seq (h.perform rfl) fun _ =>
              Within.seq (waitAll_uses h true) fun _ =>
                terminalStatus_hard (h.mono rfl) hhard

theorem killUninitialized_hard (h : Has S teardownParts) :
    Within S (killUninitialized : P V ExitStatus) ProposesHard :=
  Within.seq (h.perform rfl) fun _ =>
    Within.seq (requestAll_uses (h.mono rfl) .kill) fun _ =>
      Within.seq (closeDiscarded_uses h false _) fun _ =>
        Within.seq (waitAll_uses h false) fun _ =>
          terminalStatus_hard (h.mono rfl) rfl

theorem failUninitializedWith_hard (h : Has S teardownParts)
    {reason : ExitReason} (hhard : reason.isHard = true) :
    Within S (failUninitializedWith reason : P V ExitStatus) ProposesHard :=
  Within.seq (h.perform rfl) fun _ =>
    Within.seq (requestAll_uses (h.mono rfl) .kill) fun _ =>
      Within.seq (h.perform rfl) fun _ =>
        Within.seq (closeDiscarded_uses h false _) fun _ =>
          Within.seq (waitAll_uses h false) fun _ =>
            terminalStatus_hard (h.mono rfl) hhard

section Failure

variable (hopen : forall mode, S.gives (.mode : Op V Mode) mode ->
  mode.isExited = false)

include hopen in
theorem mode_open (h : Has S [.looks]) :
    Within S (mode : P V Mode) (fun mode => mode.isExited = false) :=
  Within.perform (h _ rfl) hopen

include hopen in
theorem failActor_hard (h : Has S teardownParts) :
    Within S (failActor A) ProposesHard := by
  refine Within.seq (h.perform rfl) fun _ => ?_
  refine Within.bind (mode_open hopen (h.mono rfl)) fun mode hmode => ?_
  cases mode with
  | exited status => cases hmode
  | _ => exact failWith_hard h rfl

include hopen in
theorem failUninitialized_hard (h : Has S teardownParts) :
    Within S (failUninitialized : P V ExitStatus) ProposesHard := by
  refine Within.seq (h.perform rfl) fun _ => ?_
  refine Within.bind (mode_open hopen (h.mono rfl)) fun mode hmode => ?_
  cases mode with
  | exited status => cases hmode
  | _ => exact failUninitializedWith_hard h rfl

end Failure

/-!
## Frames
-/

def frameParts : List Part :=
  [.looks, .fails, .answers, .values, .drops, .removes, .closes, .discards,
    .asks, .retires]

/-- Dropping what a frame owns besides the values of its actor. -/
def ownedParts : List Part :=
  [.looks, .fails, .answers, .values, .drops, .removes, .closes, .discards,
    .asks]

theorem dropInbox_uses (h : Has S ownedParts) :
    (ActorInbox.drop : P V Unit).Uses S := by
  refine Within.seq (h.perform rfl) fun _ => ?_
  apply Within.repeated
  intro _
  refine Within.seq (tryDiscard_uses (h.mono rfl)) fun discarded => ?_
  exact Within.ite trivial trivial

theorem dropInitialized_within (h : Has S ownedParts)
    (hactor : (callUser (.actor false) : P V Unit).Uses S) :
    (dropInitialized : P V Unit).Uses S := by
  have hrunning : (RunningActor.drop : P V Unit).Uses S :=
    Within.seq (dropQueue_uses (h.mono rfl)) fun _ =>
      Within.onExit hactor (dropChildren_uses (h.mono rfl))
  exact Within.onExit hrunning (dropInbox_uses h)

theorem dropInitialized_uses (h : Has S frameParts) :
    (dropInitialized : P V Unit).Uses S :=
  dropInitialized_within (h.mono rfl) (callUser_uses (h.mono rfl))

theorem dropUninitialized_uses (h : Has S ownedParts) :
    (dropUninitialized : P V Unit).Uses S :=
  Within.seq (dropQueue_uses (h.mono rfl)) fun _ =>
    Within.seq (dropInbox_uses h) (fun _ => dropChildren_uses (h.mono rfl))

theorem dropUnpolled_uses (h : Has S frameParts) :
    (dropUnpolled : P V Unit).Uses S :=
  Within.onExit (callUser_uses (h.mono rfl))
    (Within.seq (dropChildren_uses (h.mono rfl)) fun _ =>
      Within.seq (dropInbox_uses (h.mono rfl))
        (fun _ => dropQueue_uses (h.mono rfl)))

theorem dropFuturePanicked_uses (h : Has S [.fails]) {drop : P V Unit}
    (hdrop : drop.Uses S) :
    (ActorWorkGuard.dropFuturePanicked drop).Uses S := by
  refine Within.bind hdrop.attempt fun r _ => ?_
  cases r with
  | some _ => trivial
  | none => exact Within.seq (containPanic_uses h) (fun _ => trivial)

end Loac

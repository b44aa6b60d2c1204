import Loac.Containment.Turns
import Loac.Course.Facts
import Loac.Course.Waiting

/-!
# Turns and the exits of children

A turn stays in its phase.  When it reports that the inbox is closed, its
receiver said so.  The exit of a child releases its registration, and its hook
runs if the gate lets it.
-/

namespace Loac

open Interleave Interleave.Prog

variable {V α β γ : Type} {A : ActorConfig} {w w' : World V}
  {K C Y : World V -> Prop}

def SchedulerTurn.Tells (C : World V -> Prop) (w : World V) :
    SchedulerTurn -> Prop
  | .inboxClosed => C w
  | _ => True

def PollTells (C : World V -> Prop) (w : World V) : Poll SchedulerTurn -> Prop
  | some turn => turn.Tells C w
  | none => True

def Visit.Tells (C : World V -> Prop) (w : World V) : Visit -> Prop
  | .selected turn => turn.Tells C w
  | .leave result => PollTells C w result
  | .nothing => True

/-- A receiver that reports its closure shows `C`. -/
def Receives (A : ActorConfig) (K C : World V -> Prop) : Prop :=
  forall input w w' (turn : TurnContext), K w ->
    (Op.mail (.pollRecv turn)).exec A input w = some (w', .closed) -> C w'

section Turn

variable (hK : (vocabulary V turnParts).Keeps (courseDiscipline V A) K)
  (hC : Lasts A waitParts C) (hreceives : Receives A K C)

include hK in
theorem differs_stays (turn : TurnContext) :
    Keeps (courseDiscipline V A) K K (differs turn.expectedMode) := by
  have huses : (differs turn.expectedMode : P V Bool).Uses
      (vocabulary V turnParts) := Has.perform vocabulary_has rfl
  exact huses.keeps hK

include hK in
theorem setCursor_stays (lane : ReplyLane) :
    Keeps (courseDiscipline V A) K K (sched (.setCursor lane)) := by
  have huses : (sched (.setCursor lane) : P V Unit).Uses
      (vocabulary V turnParts) := Has.perform vocabulary_has rfl
  exact huses.keeps hK

include hK in
theorem hasDispatchCapacity_stays :
    Keeps (courseDiscipline V A) K K (hasDispatchCapacity A) := by
  have huses : (hasDispatchCapacity A : P V Bool).Uses
      (vocabulary V turnParts) :=
    hasDispatchCapacity_uses (vocabulary_has.mono rfl)
  exact huses.keeps hK

include hK in
theorem hasReplies_stays : Keeps (courseDiscipline V A) K K hasReplies := by
  have huses : (hasReplies : P V Bool).Uses (vocabulary V turnParts) :=
    hasReplies_uses (vocabulary_has.mono rfl)
  exact huses.keeps hK

include hK in
theorem pollExit_stays :
    Keeps (courseDiscipline V A) K K (kin .pollExit) := by
  have huses : (kin .pollExit : P V (Option ChildExit)).Uses
      (vocabulary V turnParts) := Has.perform vocabulary_has rfl
  exact huses.keeps hK

include hK in
theorem pollQueue_stays (turn : TurnContext) :
    Keeps (courseDiscipline V A) K K (Queue.poll turn) := by
  have huses : (Queue.poll turn : P V ReplyPoll).Uses
      (vocabulary V turnParts) := pollQueue_uses (vocabulary_has.mono rfl) turn
  exact huses.keeps hK

include hK hreceives in
theorem mailboxLane_tells (turn : TurnContext) (start : ReplyLane)
    (hw : K w) :
    wp (courseDiscipline V A) (mailboxLane A turn start)
      (fun visit w => K w ∧ visit.Tells C w) K w := by
  apply wp.iter (fun _ => K) hw
  intro dispatched w hw
  apply wp.bind
  apply wp.op hK.stable hw
  intro w hinv hw
  have hop := hK.op (.mail (.pollRecv turn)) rfl w hinv hw
  refine ⟨hop.left, ?_⟩
  intro input w' received hadmits hexec hinv'
  have hw' := (hop.right input w' received hadmits hexec hinv').left
  cases received with
  | closed => exact wp.done ⟨hw', hreceives input w w' turn hw hexec⟩
  | pending =>
      by_cases hstart : dispatched > 0 ∧ start = .reply
      · simp only [if_pos hstart]
        apply wp.seq (hasReplies_stays hK w' hw')
        intro replies w hw
        cases replies with
        | true => exact wp.done ⟨hw, trivial⟩
        | false => exact wp.done ⟨hw, trivial⟩
      · simp only [if_neg hstart]
        exact wp.done ⟨hw', trivial⟩
  | envelope envelope =>
      have hdispatch : (envelope.dispatch : P V Unit).Uses
          (vocabulary V turnParts) :=
        dispatch_uses (vocabulary_has.mono rfl) envelope
      apply wp.seq (hdispatch.keeps hK w' hw')
      intro _ w hw
      apply wp.seq (differs_stays hK turn w hw)
      intro differs w hw
      cases differs with
      | true =>
          apply wp.seq (setCursor_stays hK ReplyLane.mailbox.next w hw)
          intro _ w hw
          exact wp.done ⟨hw, trivial⟩
      | false =>
          by_cases hbudget : dispatched + 1 = A.mailboxDispatchBudget
          · simp only [if_pos hbudget]
            exact wp.done ⟨hw, trivial⟩
          · simp only [if_neg hbudget]
            apply wp.seq (hasDispatchCapacity_stays hK w hw)
            intro capacity w hw
            cases capacity with
            | true => exact wp.again hw
            | false => exact wp.done ⟨hw, trivial⟩

include hK in
theorem replyLane_tells (turn : TurnContext) (hw : K w) :
    wp (courseDiscipline V A) (replyLane turn)
      (fun visit w => K w ∧ visit.Tells C w) K w := by
  apply wp.seq (pollQueue_stays hK turn w hw)
  intro result w hw
  cases result with
  | budgetExhausted =>
      apply wp.seq (setCursor_stays hK ReplyLane.reply.next w hw)
      intro _ w hw
      exact wp.pure ⟨hw, trivial⟩
  | _ => exact wp.pure ⟨hw, trivial⟩

include hK in
theorem childExitLane_tells (hw : K w) :
    wp (courseDiscipline V A) childExitLane
      (fun visit w => K w ∧ visit.Tells C w) K w := by
  apply wp.seq (R := fun r w => K w ∧ PollTells C w r)
  · apply wp.seq (pollExit_stays hK w hw)
    intro event w hw
    cases event <;> exact wp.pure ⟨hw, trivial⟩
  · intro turn w hw
    cases turn with
    | none => exact wp.pure ⟨hw.left, trivial⟩
    | some turn => exact wp.pure hw

include hK hreceives in
theorem visit_tells (turn : TurnContext) (start lane : ReplyLane)
    (hw : K w) :
    wp (courseDiscipline V A) (visit A turn start lane)
      (fun visit w => K w ∧ visit.Tells C w) K w := by
  cases lane with
  | mailbox =>
      apply wp.seq (hasDispatchCapacity_stays hK w hw)
      intro capacity w hw
      cases hreceive : turn.receiveMessages && capacity with
      | true => exact mailboxLane_tells hK hreceives turn start hw
      | false => exact wp.pure ⟨hw, trivial⟩
  | reply =>
      apply wp.seq (hasReplies_stays hK w hw)
      intro replies w hw
      cases replies with
      | false => exact wp.pure ⟨hw, trivial⟩
      | true => exact replyLane_tells hK turn hw
  | childExit => exact childExitLane_tells hK hw

include hK hC in
theorem setCursor_tells {turn : SchedulerTurn} (lane : ReplyLane)
    (hw : K w ∧ turn.Tells C w) :
    wp (courseDiscipline V A) (sched (.setCursor lane))
      (fun _ w => K w ∧ turn.Tells C w) K w := by
  have htells : Lasts A waitParts (fun w : World V => turn.Tells C w) := by
    cases turn with
    | inboxClosed => exact hC
    | _ => exact Lasts.true
  apply wp.op (hK.stable.and htells.stable) hw
  intro w hinv hw
  have hop := hK.op (.sched (.setCursor lane)) rfl w hinv hw.left
  refine ⟨hop.left, ?_⟩
  intro input w' a hadmits hexec hinv'
  have hexec' : (Op.sched (.setCursor lane)).exec A input w = some (w', a) :=
    hexec
  exact ⟨(hop.right input w' a hadmits hexec hinv').left,
    htells.op _ input w w' a rfl hexec' hw.right⟩

include hK hC hreceives in
theorem pollLanes_tells (turn : TurnContext) (start : ReplyLane) (hw : K w) :
    wp (courseDiscipline V A) (pollLanes A turn start)
      (fun r w => K w ∧ PollTells C w r) K w := by
  apply wp.iter (fun _ => K) hw
  intro lane w hw
  apply wp.seq (differs_stays hK turn w hw)
  intro differs w hw
  cases differs with
  | true => exact wp.done ⟨hw, trivial⟩
  | false =>
      apply wp.seq (visit_tells hK hreceives turn start lane hw)
      intro visit w hw
      cases visit with
      | leave result => exact wp.done hw
      | selected selected =>
          apply wp.seq (setCursor_tells hK hC lane.next hw)
          intro _ w hw
          exact wp.done hw
      | nothing =>
          by_cases hlane : lane.next = start
          · simp only [if_pos hlane]
            apply wp.seq (setCursor_stays hK start.next w hw.left)
            intro _ w hw
            exact wp.done ⟨hw, trivial⟩
          · simp only [if_neg hlane]
            exact wp.again hw.left

include hK hC hreceives in
theorem mailboxPollTurn_tells (turn : TurnContext) (hw : K w) :
    wp (courseDiscipline V A) (MailboxRuntime.pollTurn A turn)
      (fun r w => K w ∧ PollTells C w r) K w := by
  apply wp.seq (differs_stays hK turn w hw)
  intro differs w hw
  cases differs with
  | true => exact wp.pure ⟨hw, trivial⟩
  | false =>
      have hleased : (Queue.isLeased : P V Bool).Uses
          (vocabulary V turnParts) :=
        isLeased_uses (vocabulary_has.mono rfl)
      apply wp.seq (hleased.keeps hK w hw)
      intro leased w hw
      cases leased with
      | true =>
          apply wp.seq (pollQueue_stays hK turn w hw)
          intro result w hw
          cases result <;> exact wp.pure ⟨hw, trivial⟩
      | false =>
          have hcursor : (sched .cursor : P V ReplyLane).Uses
              (vocabulary V turnParts) := Has.perform vocabulary_has rfl
          apply wp.seq (hcursor.keeps hK w hw)
          intro start w hw
          exact pollLanes_tells hK hC hreceives turn start hw

end Turn

theorem disabledPollTurn_tells
    (hK : (vocabulary V [.looks, .exits]).Keeps (courseDiscipline V A) K)
    (turn : TurnContext) (hw : K w) :
    wp (courseDiscipline V A) (DisabledRuntime.pollTurn turn)
      (fun r w => K w ∧ PollTells C w r) K w := by
  have hdiffers : (differs turn.expectedMode : P V Bool).Uses
      (vocabulary V [.looks, .exits]) := Has.perform vocabulary_has rfl
  have hexit : (kin .pollExit : P V (Option ChildExit)).Uses
      (vocabulary V [.looks, .exits]) := Has.perform vocabulary_has rfl
  apply wp.seq (hdiffers.keeps hK w hw)
  intro differs w hw
  cases differs with
  | true => exact wp.pure ⟨hw, trivial⟩
  | false =>
      apply wp.seq (hexit.keeps hK w hw)
      intro event w hw
      cases event <;> exact wp.pure ⟨hw, trivial⟩

theorem pollTurn_tells
    (hK : (vocabulary V (actorParts A)).Keeps (courseDiscipline V A) K)
    (hC : Lasts A waitParts C) (hreceives : Receives A K C)
    (turn : TurnContext) (hw : K w) :
    wp (courseDiscipline V A) (pollTurn A turn)
      (fun r w => K w ∧ PollTells C w r) K w := by
  unfold pollTurn
  unfold actorParts at hK
  cases hbox : A.mailbox with
  | none =>
      rw [hbox] at hK
      exact disabledPollTurn_tells hK turn hw
  | some transport =>
      rw [hbox] at hK
      exact mailboxPollTurn_tells hK hC hreceives turn hw

theorem actorTurn_tells {phase : Phase} (hlax : phase.lax = true)
    (hphase : turnParts.all phase.allows = true)
    (hK : Lasts A (actorParts A) K) (hwaits : Lasts A waitParts K)
    (hC : Lasts A waitParts C) (hreceives : Receives A K C)
    (turn : TurnContext) (hw : At phase w ∧ K w)
    (hheeded : Heeded (fun mode => mode = turn.expectedMode) w) :
    wp (courseDiscipline V A) (actorTurn A turn)
      (fun r w => (At phase w ∧ K w) ∧ r.Tells C w)
      (fun w => At phase w ∧ K w) w := by
  have hstays : Lasts A waitParts (fun w : World V => At phase w ∧ K w) :=
    at_waits.and hwaits
  have htells : forall r : SchedulerTurn, Lasts A waitParts
      (fun w : World V => (At phase w ∧ K w) ∧ r.Tells C w) := by
    intro r
    cases r with
    | inboxClosed => exact hstays.and hC
    | _ => exact hstays.and Lasts.true
  have hlistening : Lasts A (actorParts A)
      (Listening (V := V) (Site.turn turn.expectedMode).Accepts) :=
    listening_lasts (actorParts_sub rfl)
  have hkeeps := at_keeps (V := V) (actorParts_sub hphase) (hK.and hlistening)
  have hpoll : forall (_ : Unit) (w : World V), (At phase w ∧ K w) ->
      Listening (Site.turn turn.expectedMode).Accepts w ->
        wp (courseDiscipline V A) (pollOnce (pollTurn A turn) ())
          (Sound.Splits
            (fun _ w => (At phase w ∧ K w) ∧
              Listening (Site.turn turn.expectedMode).Accepts w)
            (fun r w => (At phase w ∧ K w) ∧ r.Tells C w))
          (fun w => At phase w ∧ K w) w := by
    intro _ w hw hlistening
    have hturn := pollTurn_tells hkeeps hC
      (fun input w w' context hw hexec =>
        hreceives input w w' context hw.right.left hexec) turn
      ⟨hw.left, hw.right, hlistening⟩
    apply wp.seq (wp.mono (fun _ _ hw => hw)
      (fun _ hw => ⟨hw.left, hw.right.left⟩) hturn)
    intro r w hw
    rcases hw with ⟨⟨hat, hkept, hlistening⟩, htells⟩
    cases r with
    | none => exact wp.pure ⟨⟨hat, hkept⟩, hlistening⟩
    | some turn => exact wp.pure ⟨⟨hat, hkept⟩, htells⟩
  apply wp.seq (select_waits (.turn turn.expectedMode) rfl ()
    (I := fun _ w => At phase w ∧ K w) (fun _ => hstays) htells hstays
    (fun _ w hw => ⟨phase, hlax, hw.left⟩) hpoll hw hheeded)
  intro r w hw
  cases r with
  | inl _ => exact wp.pure ⟨hw, trivial⟩
  | inr turn => exact wp.pure hw

/-!
## Exits of children
-/

theorem At.noted {phase phase' : Phase} {entry : Entry} {op : Op V α}
    {input : Input V} {a : α} (hat : At phase w)
    (hstep : phase.step entry = some phase') (hends : op.ends = false)
    (hexec : op.exec A input w = some (w', a))
    (hcourse : w'.life.course = entry :: w.life.course) : At phase' w' :=
  hat.cons hstep hcourse
    (unexited_of_presses (Op.control_presses hends hexec) hat.unexited)

theorem At.unnoted {phase : Phase} {op : Op V α} {input : Input V} {a : α}
    (hat : At phase w) (hends : op.ends = false)
    (hexec : op.exec A input w = some (w', a))
    (hcourse : w'.life.course = w.life.course) : At phase w' := by
  refine ⟨?_, unexited_of_presses (Op.control_presses hends hexec)
    hat.unexited⟩
  rw [hcourse]
  exact hat.after

theorem reap_at {phase : Phase} (released : Phase) (event : ChildExit)
    (hstep : phase.step (.reaped event.child) = some released)
    (hK : Lasts A [.reaps] K) (hw : At phase w ∧ K w) :
    wp (courseDiscipline V A) (kin (.reap event))
      (fun reaped w => At (if reaped then released else phase) w ∧ K w)
      Y w := by
  have hat : Lasts A [] (At (V := V) phase) := at_waits.mono rfl
  apply wp.op (hat.stable.and hK.stable) hw
  intro w _ hw
  constructor
  · apply hw.left.inOrder
    rw [hstep]
    rfl
  · intro input w' reaped _ hexec _
    have hexec' : (Op.kin (.reap event)).exec A input w = some (w', reaped) :=
      hexec
    refine ⟨?_, hK.op _ input w w' reaped rfl hexec' hw.right⟩
    have hcourse : w'.life = w.life.noteKin (.reap event) reaped := by
      cases hexec
      rfl
    cases reaped with
    | true => exact hw.left.noted hstep rfl hexec' (by rw [hcourse]; rfl)
    | false => exact hw.left.unnoted rfl hexec' (by rw [hcourse]; rfl)

theorem beginChildHook_at (phase : Phase) (next : Bool -> Phase)
    (hstep : forall w : World V, K w ->
      phase.step (.hookGate (w.control.mode = .running)) =
        some (next (w.control.mode = .running)))
    (hK : Lasts A [.gate] K) (hw : At phase w ∧ K w) :
    wp (courseDiscipline V A) (transact .beginChildHook)
      (fun opened w => At (next opened) w ∧ K w) Y w := by
  have hat : Lasts A [] (At (V := V) phase) := at_waits.mono rfl
  apply wp.op (hat.stable.and hK.stable) hw
  intro w _ hw
  have hentry := hstep w hw.right
  constructor
  · apply hw.left.inOrder
    rw [hentry]
    rfl
  · intro input w' opened _ hexec _
    have hexec' : (Op.transact .beginChildHook).exec A input w =
        some (w', opened) := hexec
    refine ⟨?_, hK.op _ input w w' opened rfl hexec' hw.right⟩
    cases hexec
    exact hw.left.noted hentry rfl hexec' rfl

/-- What the exit of a child uses around the turn. -/
def exitParts : List Part := .reaps :: .gate :: .hook :: .retires :: waitParts

theorem hook_runs (child : Key) : Phase.Runs (.hookPoll child)
    [.admitted child, .hooking child] (.hooking child) (.hooking child)
    .running .running where
  inside := by simp
  continues := by simp [Phase.user, Phase.hook]
  pending := by simp [Phase.user, Phase.hook]
  ready := by simp [Phase.user, Phase.hook]
  panicked := by simp [Phase.user, Phase.hook]

theorem hookDrop_retires (child : Key) (phase : Phase)
    (hmem : phase ∈ [Phase.admitted child, .hooking child])
    (outcome : Outcome) :
    phase.user (.hookDrop child) outcome = some .running := by
  simp only [List.mem_cons, List.not_mem_nil, or_false] at hmem
  rcases hmem with rfl | rfl <;> simp [Phase.user, Phase.retire]

theorem handleChildExit_running (event : ChildExit)
    (hK : Lasts A exitParts K) (hw : At .running w ∧ K w) :
    wp (courseDiscipline V A) (handleChildExit event)
      (Completes (fun _ w => At .running w ∧ K w)) Y w := by
  apply wp.seq (reap_at (.released event.child) event rfl
    (hK.mono rfl) hw)
  intro reaped w hw
  cases reaped with
  | false => exact wp.pure hw
  | true =>
      apply wp.seq (beginChildHook_at (K := K) (.released event.child)
        (fun opened => if opened then .admitted event.child else .running) _
        (hK.mono rfl) hw)
      · intro opened w hw
        cases opened with
        | false => exact wp.pure hw
        | true =>
            have hhook := awaitUser_completes (.hook event.child)
              (.hookDrop event.child) (Y := Y) rfl (fun _ h => h)
              (hook_runs event.child) rfl Lasts.true (hK.mono rfl)
              (fun h => by cases h) rfl (fun phase hmem =>
                ⟨.running, rfl, hookDrop_retires event.child phase hmem⟩)
              rfl rfl (fun _ hw => hw)
              ⟨⟨.admitted event.child, by simp, hw.left⟩, trivial,
                hw.right⟩
            apply wp.mono _ (fun _ hY => hY) hhook
            intro work w hw
            cases work with
            | complete _ => exact ⟨hw.left, hw.right.left⟩
            | _ => exact hw
      · intro w _
        cases w.control.mode <;> rfl

theorem handleChildExit_ending {shutdown : Shutdown} (event : ChildExit)
    (hK : Lasts A exitParts K)
    (hclosing : forall w : World V, K w -> w.control.mode ≠ .running)
    (hw : At (.ending shutdown) w ∧ K w) :
    wp (courseDiscipline V A) (handleChildExit event)
      (fun work w => work = .complete () ∧ At (.ending shutdown) w ∧ K w)
      Y w := by
  apply wp.seq (reap_at (.ending shutdown) event rfl (hK.mono rfl) hw)
  intro reaped w hw
  have hw : At (.ending shutdown) w ∧ K w := by
    cases reaped <;> exact hw
  cases reaped with
  | false => exact wp.pure ⟨rfl, hw⟩
  | true =>
      have hgate : forall w : World V, K w ->
          (Phase.ending shutdown).step
            (.hookGate (w.control.mode = .running)) =
              some (if decide (w.control.mode = .running) = true then
                .complete else .ending shutdown) := by
        intro w hw
        simp [hclosing w hw, Phase.step]
      apply wp.bind
      have hstable : Lasts A [] (At (V := V) (.ending shutdown)) :=
        at_waits.mono rfl
      apply wp.op (hstable.stable.and hK.stable) hw
      intro w _ hw
      have hclosed : decide (w.control.mode = .running) = false := by
        simp [hclosing w hw.right]
      constructor
      · apply hw.left.inOrder
        rw [hclosed]
        rfl
      · intro input w' opened _ hexec _
        have hexec' : (Op.transact .beginChildHook).exec A input w =
            some (w', opened) := hexec
        have hkept := hK.op _ input w w' opened rfl hexec' hw.right
        have hat : At (.ending shutdown) w' := by
          cases hexec
          have hstep : (Phase.ending shutdown).step (.hookGate false) =
              some (.ending shutdown) := rfl
          exact hw.left.noted hstep rfl hexec' (by
            rw [← hclosed]
            rfl)
        have hopened : opened = false := by
          cases hexec
          exact hclosed
        subst hopened
        exact wp.pure ⟨rfl, hat, hkept⟩

end Loac

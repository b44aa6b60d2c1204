import Loac.Frames
import Loac.Interleave.Logic
import Loac.Runtime.Lifetime

/-!
# What the lower layers keep

Most claims about the lifecycle do not depend on what the lower layers of the
runtime do in detail.  It is enough that each of their operations keeps a
property, that panics of user code lead from it to a weaker one, and that
containment leads back.  The layers are numbered by the operations they use.
-/

namespace Loac

open Interleave

variable {V α β γ : Type}

/-!
## Layers
-/

def UserSite.level : UserSite -> Nat
  | .responseWaker => 1
  | .capacityWaker => 1
  | .modeWaker => 1
  | .value => 1
  | .message => 1
  | .writer => 1
  | .args => 2
  | .actor _ => 2
  | .onShutdown _ => 2
  | .stopPoll _ => 2
  | .stopDrop _ => 2
  | .finalSend => 2
  | .replyDrop _ true => 3
  | .replyDrop _ false => 4
  | .initCall => 4
  | .initPoll => 4
  | .initDrop => 4
  | .hookPoll _ => 4
  | .hookDrop _ => 4
  | .construct _ => 5
  | .replyPoll _ => 5

theorem UserSite.level_le (site : UserSite) : site.level <= 5 := by
  unfold level
  split <;> decide

theorem UserSite.level_pos (site : UserSite) : 0 < site.level := by
  unfold level
  split <;> decide

/--
The lowest layer of the runtime that uses the operation: looking at flags,
responses, user code without the scope, the cleared queue, user code with the
scope, the polls of replies, the scheduler, and the rest.
-/
def Op.level : Op V α -> Nat
  | .mode => 0
  | .differs _ => 0
  | .pollNotified => 0
  | .dropNotified => 0
  | .wakeTask => 0
  | .sched (.setCursor _) => 0
  | .transact .beginFailure => 0
  | .mail (.respond _ _) => 1
  | .mail (.beginCompletion _) => 1
  | .transact .beginInitialization => 2
  | .transact .beginChildHook => 2
  | .mail .close => 2
  | .mail .isEmpty => 2
  | .mail .tryRecv => 2
  | .kin .pollExit => 2
  | .kin .actors => 2
  | .kin (.request _ _) => 2
  | .kin .subtree => 2
  | .sched .drain => 3
  | .sched .forceRelease => 2
  | .sched (.takeReply _) => 5
  | .sched (.takeFinal _) => 5
  | .sched (.register _) => 5
  | .sched _ => 6
  | .mail _ => 6
  | .user site => site.level
  | _ => 7

/--
The operation keeps `K`.  When it unwinds it may lead to `X` instead.
-/
def SoundAt {A : ActorConfig} (D : Discipline (machine V A)) (op : Op V α)
    (K X : World V -> Prop) : Prop :=
  forall w, D.inv w -> K w ->
    D.demands op w ∧ forall input w' (a : α), D.admits op input w ->
      op.exec A input w = some (w', a) -> D.inv w' ->
        (op.blamed a = false -> K w') ∧ (op.blamed a = true -> X w')

structure Steady {A : ActorConfig} (D : Discipline (machine V A)) (n : Nat)
    (K X : World V -> Prop) : Prop where
  stable : D.Stable K
  op : forall {α : Type} (op : Op V α), op.level <= n -> SoundAt D op K X

def Op.suspends : Op V α -> Bool
  | .suspend _ => true
  | _ => false

structure Idle {A : ActorConfig} (D : Discipline (machine V A))
    (K : World V -> Prop) : Prop extends Steady D 0 K K where
  suspend : forall site, SoundAt D (.suspend site) K K

structure Sound {A : ActorConfig} (D : Discipline (machine V A)) (n : Nat)
    (K X : World V -> Prop) : Prop extends Steady D n K X where
  weaken : forall w, K w -> X w
  stableUnwound : D.Stable X
  contain : forall w, D.inv w -> X w ->
    D.demands (.transact .beginFailure) w ∧ forall input w',
      D.admits (.transact .beginFailure) input w ->
        (Op.transact .beginFailure).exec A input w = some (w', ()) ->
          D.inv w' -> K w'

/-- A property that waiting and the lower layers carry along. -/
structure Carried {A : ActorConfig} (D : Discipline (machine V A)) (n : Nat)
    (P : World V -> Prop) : Prop where
  stable : D.Stable P
  kept : forall {α : Type} (op : Op V α),
    op.level <= n ∨ op.suspends = true ->
      forall w input w' (a : α), D.inv w -> D.admits op input w ->
        op.exec A input w = some (w', a) -> P w -> P w'

namespace Carried

variable {A : ActorConfig} {D : Discipline (machine V A)} {n : Nat}
  {P P' : World V -> Prop}

theorem mono {n' : Nat} (h : Carried D n P) (hle : n' <= n) :
    Carried D n' P where
  stable := h.stable
  kept := fun op hop =>
    h.kept op (hop.imp_left (fun hlevel => Nat.le_trans hlevel hle))

theorem true : Carried D n (fun _ => True) where
  stable := Discipline.Stable.true
  kept := fun _ _ _ _ _ _ _ _ _ _ => trivial

theorem hard : Carried D n (Hard (V := V)) where
  stable := fun _ _ _ _ _ henv hw => (EnvAct.control_moves henv).isHard hw
  kept := fun _ _ _ _ _ _ _ _ hexec hw => (Op.control_moves hexec).isHard hw

end Carried

section Operations

variable {A : ActorConfig} {D : Discipline (machine V A)}
  {K X Y : World V -> Prop}

theorem SoundAt.perform {op : Op V α} (h : SoundAt D op K X)
    (hstable : D.Stable K) (hblamed : forall a, op.blamed a = false) :
    Keeps D K Y (Prog.perform op) := by
  intro w hw
  apply wp.op hstable hw
  intro w hinv hw
  have hop := h w hinv hw
  constructor
  · exact hop.left
  · intro input w' a hadmits hexec hinv'
    exact (hop.right input w' a hadmits hexec hinv').left (hblamed a)

theorem SoundAt.and {op : Op V α} {P : World V -> Prop} (h : SoundAt D op K X)
    (hkept : forall w input w' (a : α), D.inv w -> D.admits op input w ->
      op.exec A input w = some (w', a) -> P w -> P w') :
    SoundAt D op (fun w => K w ∧ P w) (fun w => X w ∧ P w) := by
  intro w hinv hw
  have hop := h w hinv hw.left
  constructor
  · exact hop.left
  · intro input w' a hadmits hexec hinv'
    have hK := hop.right input w' a hadmits hexec hinv'
    have hP := hkept w input w' a hinv hadmits hexec hw.right
    exact ⟨fun hblamed => ⟨hK.left hblamed, hP⟩,
      fun hblamed => ⟨hK.right hblamed, hP⟩⟩

theorem SoundAt.runUser {site : UserSite} (h : SoundAt D (.user site) K X)
    (hstable : D.Stable K)
    (hweaken : site.foreign = true -> forall w, K w -> X w) :
    Keeps D K X (Loac.runUser site) := by
  apply Keeps.iter
  intro _ w hw
  apply wp.bind
  apply wp.op hstable hw
  intro w hinv hw
  have hop := h w hinv hw
  constructor
  · exact hop.left
  · intro input w' step hadmits hexec hinv'
    have hkept := hop.right input w' step hadmits hexec hinv'
    cases step with
    | continues => exact hkept.left rfl
    | returns value => exact hkept.left rfl
    | panics =>
        cases hforeign : site.foreign with
        | true =>
            exact hweaken hforeign w' (hkept.left (congrArg (!·) hforeign))
        | false => exact hkept.right (congrArg (!·) hforeign)

theorem Keeps.callUser {site : UserSite}
    (h : Keeps D K X (Loac.runUser site)) :
    Keeps D K X (Loac.callUser site) :=
  Keeps.bind h (fun _ => Keeps.pure ())

theorem Keeps.pollUser {site : UserSite}
    (h : Keeps D K X (Loac.runUser site)) :
    Keeps D K X (Loac.pollUser site) := by
  apply Keeps.bind h
  intro value
  cases value with
  | none => exact Keeps.pure _
  | some _ => exact Keeps.pure _

theorem Keeps.containUnwind {contained : P V Unit}
    (h : Keeps D K K contained) :
    Keeps D K Y (Loac.containUnwind contained) := by
  intro w hw
  apply wp.bind
  apply wp.attempt
  exact wp.mono (fun _ _ hw' => hw') (fun _ hw' => hw') (h w hw)

end Operations

/-!
## User code and containment
-/

namespace Steady

variable {A : ActorConfig} {D : Discipline (machine V A)} {n : Nat}
  {K X Y : World V -> Prop}

theorem perform (h : Steady D n K X) (op : Op V α) (hlevel : op.level <= n)
    (hblamed : forall a, op.blamed a = false) :
    Keeps D K Y (Prog.perform op) :=
  (h.op op hlevel).perform h.stable hblamed

theorem mode (h : Steady D n K X) : Keeps D K Y Loac.mode :=
  h.perform _ (Nat.zero_le n) (fun _ => rfl)

theorem differs (h : Steady D n K X) (expected : Mode) :
    Keeps D K Y (Loac.differs expected) :=
  h.perform _ (Nat.zero_le n) (fun _ => rfl)

theorem mode_eq (h : Steady D n K X) {w : World V} (hw : K w) :
    wp D Loac.mode (fun mode w => (D.inv w ∧ K w) ∧ mode = w.control.mode)
      Y w := by
  apply wp.op h.stable hw
  intro w hinv hw
  have hop := h.op .mode (Nat.zero_le n) w hinv hw
  constructor
  · exact hop.left
  · intro input w' mode hadmits hexec hinv'
    have hw' := (hop.right input w' mode hadmits hexec hinv').left rfl
    cases hexec
    exact ⟨⟨hinv', hw'⟩, rfl⟩

theorem differs_ne (h : Steady D n K X) (expected : Mode) {w : World V}
    (hw : K w) :
    wp D (Loac.differs expected)
      (fun differs w => K w ∧ (differs = true -> w.control.mode ≠ expected))
      Y w := by
  apply wp.op h.stable hw
  intro w hinv hw
  have hop := h.op (.differs expected) (Nat.zero_le n) w hinv hw
  constructor
  · exact hop.left
  · intro input w' differs hadmits hexec hinv'
    have hw' := (hop.right input w' differs hadmits hexec hinv').left rfl
    cases hexec
    exact ⟨hw', of_decide_eq_true⟩

theorem wakeTask (h : Steady D n K X) :
    Keeps D K Y (Prog.perform .wakeTask) :=
  h.perform _ (Nat.zero_le n) (fun _ => rfl)

theorem sched (h : Steady D n K X) (op : SchedOp α)
    (hlevel : (Op.sched op : Op V α).level <= n) :
    Keeps D K Y (Loac.sched op) :=
  h.perform _ hlevel (fun _ => rfl)

theorem mail (h : Steady D n K X) (op : MailOp V α)
    (hlevel : (Op.mail op).level <= n) : Keeps D K Y (Loac.mail op) :=
  h.perform _ hlevel (fun _ => rfl)

theorem kin (h : Steady D n K X) (op : KinOp α)
    (hlevel : (Op.kin op : Op V α).level <= n) : Keeps D K Y (Loac.kin op) :=
  h.perform _ hlevel (fun _ => rfl)

theorem transact (h : Steady D n K X) (t : Transaction α)
    (hlevel : (Op.transact t : Op V α).level <= n) :
    Keeps D K Y (Loac.transact t) :=
  h.perform _ hlevel (fun _ => rfl)

theorem callFailure (h : Steady D n K X) (phase : CallPhase) :
    Keeps D K Y (Loac.callFailure phase) :=
  Keeps.bind h.mode (fun _ => Keeps.pure _)

/-- A foreign waker that panics leaves nothing to contain. -/
theorem responseWaker (h : Steady D n K X) (hn : 1 <= n) :
    Keeps D K K (Loac.callUser .responseWaker) := by
  apply Keeps.callUser
  apply SoundAt.runUser _ h.stable (fun _ _ hw => hw)
  intro w hinv hw
  have hop := h.op (.user .responseWaker) hn w hinv hw
  constructor
  · exact hop.left
  · intro input w' step hadmits hexec hinv'
    have hkept := (hop.right input w' step hadmits hexec hinv').left
      (by cases step <;> rfl)
    exact ⟨fun _ => hkept, fun _ => hkept⟩

theorem lowest (h : Steady D n K X) : Steady D 0 K K where
  stable := h.stable
  op := by
    intro α op hlevel w hinv hw
    have hop := h.op op (by omega) w hinv hw
    constructor
    · exact hop.left
    · intro input w' a hadmits hexec hinv'
      have hblamed : op.blamed a = false := by
        cases op with
        | user site => exact absurd site.level_pos (Nat.not_lt.mpr hlevel)
        | _ => rfl
      have hkept := (hop.right input w' a hadmits hexec hinv').left hblamed
      exact ⟨fun _ => hkept, fun _ => hkept⟩

theorem and {P : World V -> Prop} (h : Steady D n K X) (hP : Carried D n P) :
    Steady D n (fun w => K w ∧ P w) (fun w => X w ∧ P w) where
  stable := h.stable.and hP.stable
  op := fun op hlevel =>
    (h.op op hlevel).and (hP.kept op (Or.inl hlevel))

end Steady

namespace Idle

variable {A : ActorConfig} {D : Discipline (machine V A)}
  {K Y : World V -> Prop}

theorem never : Idle D (fun _ => False) where
  stable := fun _ _ _ _ _ _ hw => hw
  op := fun _ _ _ _ hw => hw.elim
  suspend := fun _ _ _ hw => hw.elim

theorem waits (h : Idle D K) (site : Site) : Keeps D K Y (Loac.suspend site) :=
  (h.suspend site).perform h.stable (fun _ => rfl)

theorem and {P : World V -> Prop} (h : Idle D K) (hP : Carried D 0 P) :
    Idle D (fun w => K w ∧ P w) where
  toSteady := h.toSteady.and hP
  suspend := fun site =>
    (h.suspend site).and (hP.kept (.suspend site) (Or.inr rfl))

end Idle

namespace Sound

open Prog

variable {A : ActorConfig} {D : Discipline (machine V A)} {n : Nat}
  {K X Y : World V -> Prop}

theorem and {P : World V -> Prop} (h : Sound D n K X) (hP : Carried D n P) :
    Sound D n (fun w => K w ∧ P w) (fun w => X w ∧ P w) where
  toSteady := h.toSteady.and hP
  weaken := fun w hw => ⟨h.weaken w hw.left, hw.right⟩
  stableUnwound := h.stableUnwound.and hP.stable
  contain := by
    intro w hinv hw
    have hcontain := h.contain w hinv hw.left
    constructor
    · exact hcontain.left
    · intro input w' hadmits hexec hinv'
      exact ⟨hcontain.right input w' hadmits hexec hinv',
        hP.kept (.transact .beginFailure) (Or.inl (Nat.zero_le n)) w input w' () hinv
          hadmits hexec hw.right⟩

theorem runUser (h : Sound D n K X) (site : UserSite)
    (hlevel : site.level <= n) : Keeps D K X (Loac.runUser site) :=
  (h.op (.user site) hlevel).runUser h.stable (fun _ => h.weaken)

theorem callUser (h : Sound D n K X) (site : UserSite)
    (hlevel : site.level <= n) : Keeps D K X (Loac.callUser site) :=
  Keeps.callUser (h.runUser site hlevel)

theorem pollUser (h : Sound D n K X) (site : UserSite)
    (hlevel : site.level <= n) : Keeps D K X (Loac.pollUser site) :=
  Keeps.pollUser (h.runUser site hlevel)

theorem containPanic (h : Sound D n K X) {w : World V} (hw : X w) :
    wp D Loac.containPanic (fun _ => K) Y w := by
  apply wp.op h.stableUnwound hw
  intro w hinv hw
  have hcontain := h.contain w hinv hw
  constructor
  · exact hcontain.left
  · intro input w' _ hadmits hexec hinv'
    exact hcontain.right input w' hadmits hexec hinv'

theorem dropUserValue (h : Sound D n K X) {value : P V Unit}
    (hvalue : Keeps D K X value) : Keeps D K Y (Loac.dropUserValue value) := by
  intro w hw
  apply wp.bind
  apply wp.attempt
  apply wp.mono _ _ (hvalue w hw)
  · intro _ w' hw'
    exact hw'
  · intro w' hw'
    exact h.containPanic hw'

theorem dropCalled (h : Sound D n K X) (site : UserSite)
    (hlevel : site.level <= n) :
    Keeps D K Y (Loac.dropUserValue (Loac.callUser site)) :=
  h.dropUserValue (h.callUser site hlevel)

/-!
## Responses
-/

theorem notifyResponse (h : Sound D n K X) (hn : 1 <= n) (id : Nat)
    (response : Response V) :
    Keeps D K Y (Loac.notifyResponse id response) := by
  refine Keeps.bind (h.mail _ hn) fun delivered => ?_
  apply Keeps.ite
  · exact Keeps.containUnwind (h.responseWaker hn)
  · cases response with
    | ok _ => exact h.dropCalled _ hn
    | error _ => exact Keeps.pure ()

theorem completeReply (h : Sound D n K X) (hn : 1 <= n)
    (reply : DispatchReply) (response : Option V) :
    Keeps D K Y (reply.complete response) := by
  have hvalue : Keeps D K Y (Loac.dropUserValue (Loac.callUser .value)) :=
    h.dropCalled _ hn
  cases reply with
  | caller id =>
      refine Keeps.bind (h.mail _ hn) fun result => ?_
      cases result with
      | ok _ => exact h.notifyResponse hn id _
      | error error =>
          exact Keeps.bind (h.notifyResponse hn id _) (fun _ => hvalue)
  | oneWay id => exact Keeps.bind (h.mail _ hn) (fun _ => hvalue)

theorem failReply (h : Sound D n K X) :
    Keeps D K Y (DispatchReply.fail : P V CallError) :=
  Keeps.bind (h.transact _ (Nat.zero_le n)) (fun _ => h.callFailure _)

theorem dropReply (h : Sound D n K X) (hn : 1 <= n) (reply : DispatchReply) :
    Keeps D K Y (reply.drop : P V Unit) := by
  cases reply with
  | caller id =>
      exact Keeps.bind h.failReply (fun _ => h.notifyResponse hn id _)
  | oneWay id => exact Keeps.bind h.failReply (fun _ => Keeps.pure ())

theorem rejectCall (h : Sound D n K X) (hn : 1 <= n) (envelope : Envelope)
    (error : CallError) :
    Keeps D K Y (CallEnvelope.reject envelope error : P V Unit) :=
  Keeps.bind (h.notifyResponse hn _ _) (fun _ => h.dropCalled _ hn)

theorem rejectStreamTo (h : Sound D n K X) (hn : 1 <= n) (envelope : Envelope)
    (error : CallError) :
    Keeps D K Y (StreamToEnvelope.reject envelope error : P V Unit) :=
  Keeps.bind (Keeps.onlyIf (h.notifyResponse hn _ _)) fun _ =>
    Keeps.bind (h.dropCalled _ hn) (fun _ => h.dropCalled _ hn)

theorem discard (h : Sound D n K X) (hn : 1 <= n) (envelope : Envelope) :
    Keeps D K Y (envelope.discard : P V Unit) := by
  have hcall : Keeps D K Y (CallEnvelope.discard envelope : P V Unit) :=
    Keeps.bind (h.callFailure _) (fun _ => h.rejectCall hn _ _)
  have hstream : Keeps D K Y (StreamToEnvelope.discard envelope : P V Unit) :=
    Keeps.bind (h.callFailure _) (fun _ => h.rejectStreamTo hn _ _)
  unfold Envelope.discard
  cases envelope.kind with
  | call => exact hcall
  | stream => exact hcall
  | send => exact h.dropCalled _ hn
  | callTo => exact hstream
  | sendTo => exact hstream

/-!
## Teardown
-/

theorem tryDiscard (h : Sound D n K X) (hn : 2 <= n) :
    Keeps D K Y (ActorInbox.tryDiscard : P V Bool) := by
  refine Keeps.bind (h.mail _ hn) fun envelope => ?_
  cases envelope with
  | none => exact Keeps.pure false
  | some envelope =>
      exact Keeps.bind (h.discard (by omega) envelope)
        (fun _ => Keeps.pure true)

theorem closeInbox (h : Sound D n K X) (hn : 2 <= n) :
    Keeps D K Y (ActorInbox.close : P V Unit) :=
  h.mail _ hn

theorem dropInbox (h : Sound D n K X) (hn : 2 <= n) :
    Keeps D K Y (ActorInbox.drop : P V Unit) := by
  refine Keeps.bind (h.closeInbox hn) fun _ => ?_
  apply Keeps.iter
  intro _
  refine Keeps.bind (h.tryDiscard hn) fun _ => ?_
  exact Keeps.ite (Keeps.again ()) (Keeps.done ())

theorem closeAndDiscard (h : Sound D n K X) (hidle : Idle D K) (hn : 2 <= n)
    (initialized : Bool) (expectedMode : Mode) {w : World V} (hw : K w) :
    wp D (Loac.closeAndDiscard initialized expectedMode)
      (fun outcome w => K w ∧
        (outcome = .modeChanged -> w.control.mode ≠ expectedMode)) Y w := by
  apply wp.seq (h.closeInbox hn w hw)
  intro _ w hw
  apply wp.iter (fun _ => K) hw
  intro dropped w hw
  apply wp.seq (h.differs_ne expectedMode hw)
  intro changed w hw
  cases changed with
  | true => exact wp.done ⟨hw.left, fun _ => hw.right rfl⟩
  | false =>
      apply wp.seq (h.tryDiscard hn w hw.left)
      intro discarded w hw
      cases discarded with
      | false => exact wp.done ⟨hw, fun hne => by cases hne⟩
      | true =>
          apply wp.seq (h.differs_ne expectedMode hw)
          intro changed w hw
          cases changed with
          | true => exact wp.done ⟨hw.left, fun _ => hw.right rfl⟩
          | false =>
              by_cases hbudget : dropped + 1 = teardownDropBudget
              · simp only [if_pos hbudget]
                apply wp.seq (h.wakeTask w hw.left)
                intro _ w hw
                apply wp.seq (hidle.waits _ w hw)
                intro _ w hw
                exact wp.again hw
              · simp only [if_neg hbudget]
                exact wp.again hw.left

theorem closeDiscarded (h : Sound D n K X) (hidle : Idle D K) (hn : 2 <= n)
    (initialized : Bool) (expectedMode : Mode) :
    Keeps D K Y (Loac.closeDiscarded initialized expectedMode : P V Unit) := by
  apply Keeps.iter
  intro expectedMode w hw
  apply wp.seq (h.closeAndDiscard hidle hn initialized expectedMode hw)
  intro outcome w hw
  cases outcome with
  | complete => exact wp.done hw.left
  | modeChanged =>
      apply wp.seq (h.mode w hw.left)
      intro _ w hw
      exact wp.again hw

theorem requestAll (h : Sound D n K X) (hn : 2 <= n) (shutdown : Shutdown) :
    Keeps D K Y (ChildSet.requestAll shutdown : P V Unit) :=
  Keeps.bind (h.kin _ hn) (fun _ => Keeps.forEach (fun _ => h.kin _ hn))

theorem dropScheduled (h : Sound D n K X) (hunwound : Sound D n X X)
    (key : Key) (cleared : Bool)
    (hlevel : (UserSite.replyDrop key cleared).level <= n) (hn : 2 <= n)
    (scheduled : ScheduledFuture) :
    Keeps D K X (scheduled.drop key cleared : P V Unit) := by
  have huser : Keeps D K X (Loac.callUser (.replyDrop key cleared) : P V Unit) :=
    h.callUser _ hlevel
  unfold ScheduledFuture.drop
  cases scheduled.future with
  | completeReply reply =>
      cases reply with
      | none => exact huser
      | some reply =>
          exact Keeps.bind (h.dropReply (by omega) reply) (fun _ => huser)
  | finishStream finalTx =>
      cases finalTx with
      | false => exact huser
      | true =>
          exact Keeps.onExit huser (h.callUser _ hn) (hunwound.callUser _ hn)

/-- Dropping the queue contains panics without blaming anybody. -/
theorem dropQueue (h : Sound D n K K) (hn : 4 <= n) :
    Keeps D K Y (Queue.drop : P V Unit) := by
  have hdrain : (Op.sched .drain : Op V _).level <= n := by
    show 3 <= n
    omega
  apply Keeps.bind
  · apply Keeps.iter
    intro _
    refine Keeps.bind (h.sched _ hdrain) fun entry => ?_
    cases entry with
    | none => exact Keeps.done ()
    | some entry =>
        have hdrop := h.dropScheduled h entry.1 false hn (by omega) entry.2
        exact Keeps.bind (Keeps.containUnwind hdrop) (fun _ => Keeps.again ())
  · intro _
    exact h.sched _ (Nat.le_trans (by decide : 2 <= 4) hn)

end Sound

/-!
## Hard modes and empty queues
-/

def NoReplies (w : World V) : Prop :=
  w.sched.items.isEmpty = true

section Replies

variable {A : ActorConfig} {D : Discipline (machine V A)} {n : Nat}
  {K X Y : World V -> Prop}

theorem noReplies_stable : D.Stable (NoReplies (V := V)) := by
  intro e w w' _ _ henv hw
  unfold NoReplies
  rw [EnvAct.items_exec henv]
  exact hw

theorem Sound.clearQueue (h : Sound D n K X) (hunwound : Sound D n X X)
    (hn : 3 <= n) {w : World V} (hw : K w) :
    wp D Queue.clear (fun _ w => K w ∧ NoReplies w) Y w := by
  apply wp.seq (R := fun _ w => K w ∧ NoReplies w)
  · apply wp.iter (fun _ => K) hw
    intro _ w hw
    apply wp.bind
    apply wp.op h.stable hw
    intro w hinv hw
    have hop := h.op (.sched .drain) hn w hinv hw
    constructor
    · exact hop.left
    · intro input w' entry hadmits hexec hinv'
      have hw' := (hop.right input w' entry hadmits hexec hinv').left rfl
      cases hexec
      cases hentry : w.sched.drain.2 with
      | none =>
          have hdrained := Sched.drain_none hentry
          have hempty : NoReplies { w with sched := w.sched.drain.1 } := by
            show w.sched.drain.1.items.isEmpty = true
            rw [hdrained.right]
            exact hdrained.left
          simp only [SchedOp.exec, hentry]
          exact wp.done ⟨hw', hempty⟩
      | some entry =>
          simp only [SchedOp.exec, hentry]
          have hdrop := h.dropScheduled hunwound entry.1 true hn (by omega)
            entry.2
          apply wp.seq (h.dropUserValue hdrop _ hw')
          intro _ w hw
          exact wp.again hw
  · intro _ w hw
    apply wp.op (h.stable.and noReplies_stable) hw
    intro w hinv hw
    have hlevel : (Op.sched .forceRelease : Op V _).level <= n :=
      Nat.le_trans (by decide : 2 <= 3) hn
    have hop := h.op (.sched .forceRelease) hlevel w hinv hw.left
    constructor
    · exact hop.left
    · intro input w' _ hadmits hexec hinv'
      have hw' := (hop.right input w' () hadmits hexec hinv').left rfl
      cases hexec
      exact ⟨hw', hw.right⟩

theorem Keeps.dropEmptyQueue (hstable : D.Stable K)
    (hempty : forall w, K w -> NoReplies w)
    (hdemands : forall w, D.demands (.sched .drain) w)
    (hrelease : Keeps D K X (Loac.sched .forceRelease)) :
    Keeps D K X (Queue.drop : P V Unit) := by
  intro w hw
  apply wp.seq (R := fun _ => K)
  · apply wp.iter (fun _ => K) hw
    intro _ w hw
    apply wp.bind
    apply wp.op hstable hw
    intro w _ hw
    refine ⟨hdemands w, ?_⟩
    intro input w' entry _ hexec _
    have hdrain := Sched.drain_empty (hempty w hw)
    cases hexec
    simp only [SchedOp.exec, hdrain]
    exact wp.done hw
  · intro _ w hw
    exact hrelease w hw

end Replies

end Loac

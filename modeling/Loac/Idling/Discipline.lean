import Loac.Containment.Awake
import Loac.Course.Hints
import Loac.Delivery.Books
import Loac.Delivery.Steps
import Loac.Exclusion.Discipline

/-!
# Waiting for work

A graceful shutdown waits in turns of the scheduler for the replies that are
left, and a drain for its queue as well.  A turn is suspended when nothing in
it was ready.  Whether anything is left to wait for was decided before, and
much can happen in between: the last reply can finish, and the last envelope
can be rejected.  What is stated here is when a suspended turn has something
left.  A turn whose inbox has no budget is suspended in any case, but awake, and
it asks the inbox again.
-/

namespace Loac

open Interleave Interleave.Prog

variable {V α β γ : Type} {A : ActorConfig} {goal : Mode} {w w' : World V}

/-!
## What is claimed
-/

def Heading (goal : Mode) (w : World V) : Prop :=
  w.control.mode.isHard = false ∧
    (w.control.mode = .running ∨ w.control.mode = goal)

/-- A reply is left, or an envelope for which a drain waits. -/
def Busy (goal : Mode) (w : World V) : Prop :=
  w.sched.items.isEmpty = false ∨ (goal = .draining ∧ w.mail.queue ≠ [])

/--
A turn goes on although it leaves nothing to wait for.  A mode test passes over
a reply that has returned, the test for ready keys finds keys of replies that
are gone, or an open inbox has budget and nothing to give.
-/
def Forgets (A : ActorConfig) (goal : Mode) :
    {α : Type} -> Op V α -> Input V -> World V -> Prop
  | _, .differs expected, _, w =>
      Heading goal w ∧ w.control.mode ≠ expected ∧ ¬ Awaiting none w
  | _, .sched (.readyIsEmpty turn), _, w =>
      Heading goal w ∧ turn.expectedMode = goal ∧ ¬ Busy goal w ∧
        w.sched.ready ≠ []
  | _, .mail (.pollRecv turn), input, w =>
      Heading goal w ∧ turn.expectedMode = goal ∧ ¬ Busy goal w ∧
        w.mail.queue = [] ∧ input.reception ≠ .refused ∧
        (w.mail.closed && w.mail.settled input.reception
          (A.mailbox.getD .unbounded)) = false
  | _, _, _, _ => False

def IdleDemands (goal : Mode) : {α : Type} -> Op V α -> World V -> Prop
  | _, .suspend site, w =>
      site.turns = some goal -> Heading goal w -> Awaiting none w ∧
        (Busy goal w ∨ (site ≠ .finishReplies ∧ w.task = true))
  | _, _, _ => True

def idling (V : Type) (A : ActorConfig) (goal : Mode) :
    Discipline (machine V A) where
  inv := fun _ => True
  admits := fun op input w => ¬ Forgets A goal op input w
  tolerates := fun _ _ => True
  demands := IdleDemands goal

theorem idling_lawful : (idling V A goal).Lawful where
  actor := fun _ _ _ _ _ _ _ _ _ => trivial
  env := fun _ _ _ _ _ _ => trivial

theorem demands_awake {op : Op V α} (h : op.sleeps = false) :
    IdleDemands goal op w := by
  cases op with
  | suspend site =>
      intro hturns
      change site.turns.isSome = false at h
      rw [hturns] at h
      cases h
  | _ => trivial

/-!
## What is known along the way
-/

/-- No reply that has returned is left, with one exception. -/
def Mindful (goal : Mode) (late : Option Key) (w : World V) : Prop :=
  Heading goal w -> Awaiting late w

def Engaged (goal : Mode) (turn : TurnContext) (w : World V) : Prop :=
  Heading goal w ->
    Awaiting none w ∧ (turn.expectedMode = goal -> Busy goal w)

def AsksInbox (A : ActorConfig) (turn : TurnContext) : Prop :=
  turn.receiveMessages = true ∧ A.mailbox ≠ none

/-- Something is left to wait for, unless a turn that asks its inbox is excused. -/
def Attends (A : ActorConfig) (goal : Mode) (turn : TurnContext)
    (excused : World V -> Prop) (w : World V) : Prop :=
  Heading goal w ->
    Awaiting none w ∧ (turn.expectedMode = goal ->
      Busy goal w ∨ (AsksInbox A turn ∧ excused w))

structure InPoll (goal : Mode) (key : Key) (late : Option Key)
    (w : World V) : Prop where
  mindful : Mindful goal late w
  member : w.sched.items.get? key ≠ none

def Filled (goal : Mode) (w : World V) : Prop :=
  Mindful goal none w ∧ w.sched.items.isEmpty = false

/-- The drain has found an envelope, if it is about to receive. -/
def Queued (goal : Mode) (drained : Bool) (w : World V) : Prop :=
  Mindful goal none w ∧ (drained = false -> w.mail.queue ≠ [])

theorem Engaged.mindful {turn : TurnContext} (h : Engaged goal turn w) :
    Mindful goal none w :=
  fun hheading => (h hheading).left

theorem Engaged.attends {turn : TurnContext} {excused : World V -> Prop}
    (h : Engaged goal turn w) : Attends A goal turn excused w :=
  fun hheading => ⟨(h hheading).left, fun hgoal => Or.inl ((h hheading).right hgoal)⟩

theorem Attends.mindful {turn : TurnContext} {excused : World V -> Prop}
    (h : Attends A goal turn excused w) : Mindful goal none w :=
  fun hheading => (h hheading).left

theorem Attends.engaged {turn : TurnContext} {excused : World V -> Prop}
    (h : Attends A goal turn excused w)
    (hnot : AsksInbox A turn -> excused w -> Busy goal w) :
    Engaged goal turn w :=
  fun hheading => ⟨(h hheading).left, fun hgoal =>
    ((h hheading).right hgoal).elim id fun hexcused =>
      hnot hexcused.left hexcused.right⟩

theorem Attends.mono {turn : TurnContext} {excused excused' : World V -> Prop}
    (h : Attends A goal turn excused w)
    (himp : AsksInbox A turn -> excused w -> excused' w) :
    Attends A goal turn excused' w :=
  fun hheading => ⟨(h hheading).left, fun hgoal =>
    ((h hheading).right hgoal).imp_right fun hexcused =>
      ⟨hexcused.left, himp hexcused.left hexcused.right⟩⟩

theorem Filled.engaged (h : Filled goal w) (turn : TurnContext) :
    Engaged goal turn w :=
  fun hheading => ⟨h.left hheading, fun _ => Or.inl h.right⟩

theorem Mindful.engaged {turn : TurnContext} (h : Mindful goal none w)
    (hother : turn.expectedMode ≠ goal) : Engaged goal turn w :=
  fun hheading => ⟨h hheading, fun hgoal => absurd hgoal hother⟩

theorem InPoll.filled {key : Key} (h : InPoll goal key none w) :
    Filled goal w := by
  refine ⟨h.mindful, ?_⟩
  apply Slots.isEmpty_eq_false_iff.mpr
  cases hget : w.sched.items.get? key with
  | none => exact absurd hget h.member
  | some scheduled => exact ⟨key, scheduled, hget⟩

/-!
## Facts about the replies
-/

/-- The property depends on the replies, for as long as the mode may be reached. -/
def OfReplies (goal : Mode) (P : World V -> Prop) : Prop :=
  forall w w', w'.sched.items = w.sched.items ->
    (Heading goal w' -> Heading goal w) -> P w -> P w'

/-- The property depends on the replies and on a queue that does not run empty. -/
def OfWork (goal : Mode) (P : World V -> Prop) : Prop :=
  forall w w', w'.sched.items = w.sched.items ->
    (Heading goal w' -> Heading goal w) ->
      (w.mail.queue ≠ [] -> w'.mail.queue ≠ []) -> P w -> P w'

/-- The property depends on what a turn finds, and on whether the task is woken. -/
def OfTurn (goal : Mode) (P : World V -> Prop) : Prop :=
  forall w w', w'.sched.items = w.sched.items ->
    (Heading goal w' -> Heading goal w) ->
      (w.mail.queue ≠ [] -> w'.mail.queue ≠ []) ->
        w'.sched.lease = w.sched.lease ->
          (w.task = true -> w'.task = true) -> P w -> P w'

theorem OfReplies.ofWork {P : World V -> Prop} (h : OfReplies goal P) :
    OfWork goal P :=
  fun w w' hitems hheading _ => h w w' hitems hheading

theorem Mindful.ofReplies (late : Option Key) :
    OfReplies (V := V) goal (Mindful goal late) := by
  intro w w' hitems hback h hheading
  unfold Awaiting
  rw [hitems]
  exact h (hback hheading)

theorem InPoll.ofReplies (key : Key) (late : Option Key) :
    OfReplies (V := V) goal (InPoll goal key late) := by
  intro w w' hitems hback h
  refine ⟨Mindful.ofReplies late w w' hitems hback h.mindful, ?_⟩
  rw [hitems]
  exact h.member

theorem Filled.ofReplies : OfReplies (V := V) goal (Filled goal) := by
  intro w w' hitems hback h
  refine ⟨Mindful.ofReplies none w w' hitems hback h.left, ?_⟩
  rw [hitems]
  exact h.right

theorem Engaged.ofWork (turn : TurnContext) :
    OfWork (V := V) goal (Engaged goal turn) := by
  intro w w' hitems hback hqueue h hheading
  have hbefore := h (hback hheading)
  constructor
  · exact Mindful.ofReplies none w w' hitems hback h.mindful hheading
  · intro hgoal
    cases hbefore.right hgoal with
    | inl hreplies =>
        left
        rw [hitems]
        exact hreplies
    | inr hwaits => exact Or.inr ⟨hwaits.left, hqueue hwaits.right⟩

theorem Attends.ofTurn (A : ActorConfig) (turn : TurnContext)
    {excused : World V -> Prop}
    (hexcused : forall w w' : World V, w'.sched.lease = w.sched.lease ->
      (w.task = true -> w'.task = true) -> excused w -> excused w') :
    OfTurn goal (Attends A goal turn excused) := by
  intro w w' hitems hback hqueue hlease htask h hheading
  have hbefore := h (hback hheading)
  refine ⟨Mindful.ofReplies none w w' hitems hback h.mindful hheading,
    fun hgoal => ?_⟩
  rcases hbefore.right hgoal with (hreplies | hwaits) | hexcuse
  · left
    left
    rw [hitems]
    exact hreplies
  · exact Or.inl (Or.inr ⟨hwaits.left, hqueue hwaits.right⟩)
  · exact Or.inr ⟨hexcuse.left, hexcused w w' hlease htask hexcuse.right⟩

theorem Queued.ofWork (drained : Bool) :
    OfWork (V := V) goal (Queued goal drained) := by
  intro w w' hitems hback hqueue h
  exact ⟨Mindful.ofReplies none w w' hitems hback h.left,
    fun hopen => hqueue (h.right hopen)⟩

/-- The mode was not past the goal before a step, if it is not after it. -/
theorem Control.Moves.heading (h : w.control.Moves w'.control)
    (hheading : Heading goal w') : Heading goal w := by
  cases h with
  | stays hmode _ =>
      unfold Heading at hheading
      rw [hmode] at hheading
      exact hheading
  | advances hadvances _ =>
      have hrunning := hadvances.from_running hheading.left
      exact ⟨by rw [hrunning]; rfl, Or.inl hrunning⟩

theorem EnvAct.queue_stays {e : EnvAct} (h : e.exec A w = some w')
    (hqueue : w.mail.queue ≠ []) : w'.mail.queue ≠ [] := by
  rcases EnvAct.mail_exec h with
    ⟨queue, _, _, _, _, _, _, hmail, _, hadmits⟩
  rw [hmail]
  cases hadmits with
  | inl hsame =>
      show queue ≠ []
      rw [hsame.left]
      exact hqueue
  | inr henqueued =>
      rcases henqueued with ⟨_, e, hnow, _⟩
      show queue ≠ []
      rw [hnow]
      exact List.append_ne_nil_of_right_ne_nil _ (List.cons_ne_nil e [])

/-- The operation may take an envelope out of the queue. -/
def Op.unqueues : Op V α -> Bool
  | .mail (.pollRecv _) => true
  | .mail .tryRecv => true
  | _ => false

theorem Op.queue_stays {op : Op V α} {input : Input V} {a : α}
    (hop : op.unqueues = false) (h : op.exec A input w = some (w', a)) :
    w'.mail.queue = w.mail.queue := by
  cases op with
  | mail op =>
      cases h
      cases op with
      | pollRecv turn => cases hop
      | tryRecv => cases hop
      | replyIsClosed envelope =>
          show (w.mail.replyIsClosed envelope).1.queue = _
          unfold Mail.replyIsClosed Mail.reject
          split
          · split <;> rfl
          · rfl
      | beginDispatch envelope =>
          show (w.mail.beginDispatch w.control.mode envelope).1.queue = _
          unfold Mail.beginDispatch Mail.reject
          split
          · split <;> rfl
          · split <;> rfl
      | beginCompletion id =>
          show (w.mail.beginCompletion w.control.mode id).1.queue = _
          unfold Mail.beginCompletion
          split <;> rfl
      | _ => rfl
  | _ =>
      rcases Op.mail_exec rfl h with ⟨returned, hmail, _⟩
      rw [hmail]

section Steps

variable {P : World V -> Prop}

theorem OfWork.stable (h : OfWork goal P) : (idling V A goal).Stable P :=
  fun _ w w' _ _ henv hw =>
    h w w' (EnvAct.items_exec henv) (EnvAct.control_moves henv).heading
      (EnvAct.queue_stays henv) hw

theorem OfReplies.stable (h : OfReplies goal P) : (idling V A goal).Stable P :=
  h.ofWork.stable

theorem OfReplies.exec {op : Op V α} {input : Input V} {a : α}
    (h : OfReplies goal P) (hop : op.handles = false)
    (hexec : op.exec A input w = some (w', a)) (hw : P w) : P w' :=
  h w w' (Op.items_same hop hexec) (Op.control_moves hexec).heading hw

theorem OfWork.exec {op : Op V α} {input : Input V} {a : α}
    (h : OfWork goal P) (hop : op.handles = false)
    (hqueue : op.unqueues = false)
    (hexec : op.exec A input w = some (w', a)) (hw : P w) : P w' := by
  refine h w w' (Op.items_same hop hexec) (Op.control_moves hexec).heading ?_ hw
  rw [Op.queue_stays hqueue hexec]
  exact id

theorem OfReplies.perform {X : World V -> Prop} (h : OfReplies goal P)
    (op : Op V α) (hop : op.handles = false) (hsleeps : op.sleeps = false) :
    Keeps (idling V A goal) P X (Prog.perform op) := by
  intro w hw
  apply wp.op h.stable hw
  intro w _ hw
  refine ⟨demands_awake hsleeps, ?_⟩
  intro input w' a _ hexec _
  exact h.exec hop (machine_exec hexec) hw

/-- An operation that leaves the replies and the queue alone. -/
theorem OfWork.perform {X : World V -> Prop} (h : OfWork goal P)
    (op : Op V α) (hop : op.handles = false) (hsleeps : op.sleeps = false)
    (hqueue : op.unqueues = false) :
    Keeps (idling V A goal) P X (Prog.perform op) := by
  intro w hw
  apply wp.op h.stable hw
  intro w _ hw
  refine ⟨demands_awake hsleeps, ?_⟩
  intro input w' a _ hexec _
  exact h.exec hop hqueue (machine_exec hexec) hw

theorem OfTurn.stable (h : OfTurn goal P) : (idling V A goal).Stable P :=
  fun _ w w' _ _ henv hw =>
    h w w' (EnvAct.items_exec henv) (EnvAct.control_moves henv).heading
      (EnvAct.queue_stays henv) (EnvAct.lease_exec henv)
      (EnvAct.heard henv).task_kept hw

theorem OfTurn.perform {X : World V -> Prop} (h : OfTurn goal P)
    (op : Op V α) (hop : op.handles = false) (hqueue : op.unqueues = false)
    (hlease : op.leases = false) (hhears : op.part.hears = true) :
    Keeps (idling V A goal) P X (Prog.perform op) := by
  intro w hw
  apply wp.op h.stable hw
  intro w _ hw
  refine ⟨demands_awake ?_, ?_⟩
  · cases hsleeps : op.sleeps with
    | false => rfl
    | true =>
        rw [Op.sleeps_parks hsleeps] at hhears
        cases hhears
  · intro input w' a _ hexec _
    have hexec := machine_exec hexec
    refine h w w' (Op.items_same hop hexec) (Op.control_moves hexec).heading ?_
      (Op.lease_same hlease hexec) (Op.heard hhears hexec).task_kept hw
    rw [Op.queue_stays hqueue hexec]
    exact id

theorem idling_reads {X : World V -> Prop}
    (hP : (idling V A goal).Stable P) (op : SchedOp α)
    (hsame : forall sched, (op.exec sched).1 = sched) (hw : P w) :
    wp (idling V A goal) (Loac.sched op)
      (fun a w => P w ∧ a = (op.exec w.sched).2) X w := by
  apply wp.op hP hw
  intro w _ hw
  refine ⟨trivial, ?_⟩
  intro input w' a _ hexec _
  rcases Op.sched_result (machine_exec hexec) with ⟨hworld, ha⟩
  rw [hsame] at hworld
  subst hworld
  exact ⟨hw, ha.symm⟩

theorem OfReplies.keeps {parts : List Part} (h : OfReplies goal P)
    (hparts : parts.all Part.abides = true) :
    (awake V parts).Keeps (idling V A goal) P where
  stable := h.stable
  op := by
    intro β op hop w _ hw
    refine ⟨demands_awake hop.right, ?_⟩
    intro input w' b _ hexec _
    have habides : op.part.abides = true :=
      List.all_eq_true.mp hparts _ (List.contains_iff_mem.mp hop.left)
    exact ⟨h.exec (Op.abides_same habides).left (machine_exec hexec) hw, trivial⟩

theorem OfReplies.keepsParts {parts : List Part} (h : OfReplies goal P)
    (hparts : parts.all Part.abides = true)
    (hparks : parts.contains .parks = false) :
    (repertoire V parts).Keeps (idling V A goal) P := by
  refine awake_keeps (h.keeps hparts) ?_ hparks
  exact List.all_eq_true.mpr fun _ hmem => List.contains_iff_mem.mpr hmem

theorem idling_loose {parts : List Part} :
    (awake V parts).Keeps (idling V A goal) (fun _ => True) where
  stable := Discipline.Stable.true
  op := fun _ hop _ _ _ =>
    ⟨demands_awake hop.right, fun _ _ _ _ _ _ => ⟨trivial, trivial⟩⟩

end Steps

end Loac

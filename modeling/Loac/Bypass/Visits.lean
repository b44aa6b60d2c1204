import Loac.Bypass.Trace

/-!
# Visits

What one visit of a lane does to the trace, whatever else happens meanwhile.  A
visit that finds nothing leaves the way to the next lane as it found it.
-/

namespace Loac

open Interleave Interleave.Prog

variable {V α β γ : Type} {A : ActorConfig} {w w' : World V}
  {turn : TurnContext} {start lane : ReplyLane} {goal : Option ReplyLane}
  {n : Nat} {X : World V × Trace -> Prop}

/-!
## The discipline of a turn
-/

structure Circling (A : ActorConfig) (start : ReplyLane) (trace : Trace) :
    Prop where
  order : trace.touched.Pairwise fun later earlier =>
    start.distance earlier <= start.distance later
  budget : trace.messages <= A.mailboxDispatchBudget
  served : forall lane, lane ∈ trace.served -> lane ∈ trace.touched

structure Proper (A : ActorConfig) (start : ReplyLane) (op : Op V α)
    (trace : Trace) : Prop where
  order : forall lane, op.asks = some lane -> forall earlier,
    earlier ∈ trace.touched -> start.distance earlier <= start.distance lane
  budget : op.asks = some .mailbox ->
    trace.messages < A.mailboxDispatchBudget

/--
The mode is the expected one and no lease is held, and the lane in question is
enabled until it is served.
-/
def Fair (A : ActorConfig) (turn : TurnContext) (lane : ReplyLane)
    (s : World V × Trace) : Prop :=
  s.1.control.mode = turn.expectedMode ∧ s.1.sched.lease = none ∧
    (lane ∉ s.2.served -> Enabled A turn s.1 lane)

def Op.polls : Op V α -> Bool
  | .mail (.pollRecv _) => true
  | .kin .pollExit => true
  | _ => false

/--
Receivers refuse their polls as those do that share the budget of the task:
not before something has spent of it, and then all of them.
-/
structure Rationed (op : Op V α) (input : Input V) (trace : Trace) : Prop where
  spends : op.refuses input = true -> trace.Spent
  lasts : trace.refused = true -> op.polls = true -> op.refuses input = true

/--
Turns that are fair to a lane, if one is named, at every mode test, and whose
receivers then share one budget.
-/
def laneDiscipline (A : ActorConfig) (turn : TurnContext) (start : ReplyLane)
    (goal : Option ReplyLane) (β : Type) :
    Discipline ((tracing V A).solo β) where
  inv := fun s => Circling A start s.2
  admits := fun op input s =>
    match op with
    | .differs _ => forall lane, goal = some lane -> Fair A turn lane s
    | _ => goal ≠ none -> Rationed op input s.2
  tolerates := fun _ _ => True
  demands := fun op s => Proper A start op s.2

theorem Circling.step {op : Op V α} {trace : Trace} (h : Circling A start trace)
    (hop : Proper A start op trace) (input : Input V) (a : α) :
    Circling A start (tracedOn op input a trace) where
  order := by
    show (traced op a trace).touched.Pairwise _
    rw [traced_touched]
    cases hasks : op.asks with
    | none => exact h.order
    | some lane =>
        exact List.pairwise_cons.mpr ⟨hop.order lane hasks, h.order⟩
  budget := by
    rcases traced_messages op a trace with ⟨hless, hsame⟩
    show (traced op a trace).messages <= _
    by_cases hasks : op.asks = some .mailbox
    · exact Nat.le_trans hless (hop.budget hasks)
    · rw [hsame hasks]
      exact h.budget
  served := fun _ => mem_touched_of_served h.served

theorem lane_lawful :
    (laneDiscipline (V := V) A turn start goal β).Lawful where
  actor := by
    intro γ op input s s' a hs hop _ hexec
    show Circling A start s'.2
    rw [(tracing_exec hexec).right]
    exact Circling.step hs hop input a
  env := by
    intro e s s' hs _ henv
    show Circling A start s'.2
    rw [(tracing_env henv).right]
    exact hs

theorem unseen_stable {P : World V × Trace -> Prop}
    (hP : forall s s' : World V × Trace,
      s'.1.sched.cursor = s.1.sched.cursor ->
      s'.1.sched.lease = s.1.sched.lease ->
      s'.1.sched.items = s.1.sched.items -> s'.2 = s.2 -> P s -> P s') :
    (laneDiscipline A turn start goal β).Stable P := by
  intro e s s' _ _ henv hs
  rcases tracing_env henv with ⟨hworld, htrace⟩
  exact hP s s' (EnvAct.awakes hworld).cursor (EnvAct.lease_exec hworld)
    (EnvAct.items_exec hworld) htrace hs

/-!
## Reading
-/

theorem proper_of_asks {op : Op V α} (h : op.asks = none) (trace : Trace) :
    Proper A start op trace where
  order := by
    intro lane hasks
    rw [h] at hasks
    cases hasks
  budget := by
    intro hasks
    rw [h] at hasks
    cases hasks

theorem wp_reads {P : World V × Trace -> Prop} {op : SchedOp γ}
    (hP : (laneDiscipline A turn start goal β).Stable P)
    (hsame : forall sched, (op.exec sched).1 = sched)
    (hasks : (Op.sched op : Op V γ).asks = none)
    (htraced : forall a trace, traced (Op.sched op : Op V γ) a trace = trace)
    {s : World V × Trace} (hs : P s) :
    wp (laneDiscipline A turn start goal β) (sched op)
      (fun a s => P s ∧ a = (op.exec s.1.sched).2) X s := by
  apply wp.op hP hs
  intro s _ hs
  refine ⟨proper_of_asks hasks s.2, ?_⟩
  intro input s' a _ hexec _
  rcases tracing_exec hexec with ⟨hworld, htrace⟩
  rcases Op.sched_result hworld with ⟨hw', ha⟩
  have hs' : s' = s := by
    apply Prod.ext
    · rw [hw', hsame]
    · rw [htrace]
      exact htraced a s.2
  rw [hs']
  exact ⟨hs, ha.symm⟩

theorem wp_differs {P : World V × Trace -> Prop}
    (hP : (laneDiscipline A turn start goal β).Stable P)
    {s : World V × Trace} (hs : P s) :
    wp (laneDiscipline A turn start goal β) (differs turn.expectedMode)
      (fun changed s => P s ∧
        forall lane, goal = some lane -> changed = false ∧ Fair A turn lane s)
      X s := by
  apply wp.op hP hs
  intro s _ hs
  refine ⟨proper_of_asks rfl s.2, ?_⟩
  intro input s' changed hfair hexec _
  rcases tracing_exec hexec with ⟨hworld, htrace⟩
  rcases s' with ⟨w', trace'⟩
  cases hworld
  cases htrace
  refine ⟨hs, fun lane hgoal => ?_⟩
  have hlane := hfair lane hgoal
  exact ⟨by simpa using hlane.left, hlane⟩

def Waits (A : ActorConfig) (turn : TurnContext) (goal : Option ReplyLane)
    (s : World V × Trace) : Prop :=
  forall lane, goal = some lane -> lane ∉ s.2.served -> Enabled A turn s.1 lane

theorem waits_stable : (laneDiscipline (V := V) A turn start goal β).Stable
    (Waits A turn goal) := by
  intro e s s' _ _ henv hs lane hgoal hunserved
  rcases tracing_env henv with ⟨hworld, htrace⟩
  rw [htrace] at hunserved
  exact EnvAct.enabled hworld (hs lane hgoal hunserved)

theorem hasDispatchCapacity_reads {P : World V × Trace -> Prop}
    (hP : (laneDiscipline A turn start goal β).Stable P)
    {s : World V × Trace} (hs : P s) :
    wp (laneDiscipline A turn start goal β) (hasDispatchCapacity A)
      (fun capacity s => P s ∧ capacity = (s.1.sched.lease.isNone &&
        hasCapacity A s.1.sched.items.length)) X s := by
  have hheld : wp (laneDiscipline A turn start goal β) Queue.isLeased
      (fun leased s => P s ∧ leased = s.1.sched.lease.isSome) X s := by
    apply wp.seq (wp_reads hP (fun _ => rfl) rfl (fun _ _ => rfl) hs)
    intro held s hs
    exact wp.pure ⟨hs.left, congrArg Option.isSome hs.right⟩
  apply wp.seq hheld
  intro leased s hs
  have hstable : (laneDiscipline A turn start goal β).Stable
      (fun s : World V × Trace => P s ∧ leased = s.1.sched.lease.isSome) := by
    apply hP.and
    apply unseen_stable
    intro s s' _ hlease _ _ h
    rw [hlease]
    exact h
  apply wp.seq (wp_reads hstable (fun _ => rfl) rfl (fun _ _ => rfl) hs)
  intro active s hs
  apply wp.pure
  refine ⟨hs.left.left, ?_⟩
  rw [hs.left.right, hs.right]
  cases s.1.sched.lease <;> rfl

theorem hasReplies_reads {P : World V × Trace -> Prop}
    (hP : (laneDiscipline A turn start goal β).Stable P)
    {s : World V × Trace} (hs : P s) :
    wp (laneDiscipline A turn start goal β) hasReplies
      (fun replies s => P s ∧ replies = !s.1.sched.items.isEmpty) X s := by
  apply wp.seq (wp_reads hP (fun _ => rfl) rfl (fun _ _ => rfl) hs)
  intro empty s hs
  exact wp.pure ⟨hs.left, congrArg (!·) hs.right⟩

/-!
## Calm code
-/

theorem SchedOp.cursor_same {op : SchedOp α}
    (hsteers : (Op.sched op : Op V α).steers = false) (sched : Sched) :
    (op.exec sched).1.cursor = sched.cursor := by
  cases op with
  | setCursor lane => cases hsteers
  | popReady => cases hsteers
  | takeReady key => cases hsteers
  | markReady key =>
      show (sched.markReady key).cursor = _
      unfold Sched.markReady
      split <;> rfl
  | drain =>
      show sched.drain.1.cursor = _
      unfold Sched.drain
      split <;> rfl
  | takeReply key =>
      show (sched.takeReply key).1.cursor = _
      unfold Sched.takeReply
      split <;> rfl
  | takeFinal key =>
      show (sched.takeFinal key).1.cursor = _
      unfold Sched.takeFinal
      split <;> rfl
  | _ => rfl

theorem Op.cursor_same {op : Op V α} {input : Input V} {a : α}
    (hsteers : op.steers = false) (h : op.exec A input w = some (w', a)) :
    w'.sched.cursor = w.sched.cursor := by
  cases op with
  | sched op =>
      rw [(Op.sched_result h).left]
      exact SchedOp.cursor_same hsteers w.sched
  | user site =>
      have hschedules := Op.user_schedules h
      revert hschedules
      generalize w'.sched = sched'
      intro hschedules
      cases hschedules <;> rfl
  | _ => rw [Op.sched_exec rfl h]

theorem Op.refuses_none {op : Op V α} (hsteers : op.steers = false)
    (input : Input V) : op.refuses input = false := by
  cases op with
  | mail op =>
      cases op with
      | pollRecv turn => cases hsteers
      | _ => rfl
  | kin op =>
      cases op with
      | pollExit => cases hsteers
      | _ => rfl
  | _ => rfl

theorem Op.asks_none {op : Op V α} (hsteers : op.steers = false) :
    op.asks = none := by
  cases op with
  | mail op =>
      cases op with
      | pollRecv turn => cases hsteers
      | _ => rfl
  | sched op =>
      cases op with
      | popReady => cases hsteers
      | takeReady key => cases hsteers
      | _ => rfl
  | kin op =>
      cases op with
      | pollExit => cases hsteers
      | _ => rfl
  | _ => rfl

def unsteered (V : Type) (parts : List Part) : Vocabulary (Op V) where
  uses := fun op => parts.contains op.part = true ∧ op.steers = false
  gives := fun _ _ => True

theorem unsteered_calm {parts : List Part} :
    HasCalm (unsteered V parts) parts :=
  fun _ hop hsteers => ⟨hop, hsteers⟩

/--
A lane that was refused where nothing that the turn visits later can be served:
as the last one, or before a mailbox that is refused as well.
-/
def Deferred (start lane : ReplyLane) (trace : Trace) : Prop :=
  trace.refused = true ∧
    (start.distance lane = 2 ∨ (start = .reply ∧ lane = .childExit))

def Tended (start lane : ReplyLane) (trace : Trace) : Prop :=
  lane ∈ trace.served ∨ Deferred start lane trace

theorem Tended.tracedOn {op : Op V α} {input : Input V} {a : α}
    {trace : Trace} (h : Tended start lane trace) :
    Tended start lane (tracedOn op input a trace) := by
  cases h with
  | inl hserved => exact Or.inl (mem_traced_served hserved)
  | inr hdeferred =>
      refine Or.inr ⟨?_, hdeferred.right⟩
      show (op.refuses input || (traced op a trace).refused) = true
      rw [traced_refused, hdeferred.left, Bool.or_true]

structure Inside (A : ActorConfig) (turn : TurnContext) (start : ReplyLane)
    (goal : Option ReplyLane) (lane : ReplyLane) (n : Nat)
    (s : World V × Trace) : Prop where
  cursor : s.1.sched.cursor = start
  touched : forall other, other ∈ s.2.touched ->
    start.distance other <= start.distance lane
  fresh : start.distance lane < start.distance .mailbox -> s.2.messages = 0
  due : forall other, goal = some other ->
    start.distance other < start.distance lane -> Tended start other s.2
  exits : start.distance .childExit < start.distance lane ->
    .childExit ∈ s.2.touched
  mails : start.distance .mailbox < start.distance lane ->
    turn.receiveMessages = true -> hasCapacity A n = true ->
      .mailbox ∈ s.2.touched

theorem Inside.same {s s' : World V × Trace}
    (h : Inside A turn start goal lane n s)
    (hcursor : s'.1.sched.cursor = s.1.sched.cursor)
    (htouched : s'.2.touched = s.2.touched)
    (hserved : s'.2.served = s.2.served)
    (hmessages : s'.2.messages = s.2.messages)
    (hrefused : s'.2.refused = s.2.refused) :
    Inside A turn start goal lane n s' where
  cursor := hcursor.trans h.cursor
  touched := by
    rw [htouched]
    exact h.touched
  fresh := by
    rw [hmessages]
    exact h.fresh
  due := by
    unfold Tended Deferred
    rw [hserved, hrefused]
    exact h.due
  exits := by
    rw [htouched]
    exact h.exits
  mails := by
    rw [htouched]
    exact h.mails

theorem Inside.asks {op : Op V α} {input : Input V} {s s' : World V × Trace}
    {a : α} (h : Inside A turn start goal lane n s)
    (hasks : op.asks = some lane)
    (hcursor : s'.1.sched.cursor = s.1.sched.cursor)
    (htrace : s'.2 = tracedOn op input a s.2) :
    Inside A turn start goal lane n s' := by
  have htouched : s'.2.touched = lane :: s.2.touched := by
    rw [htrace]
    show (traced op a s.2).touched = _
    rw [traced_touched, hasks]
  exact {
    cursor := hcursor.trans h.cursor
    touched := by
      intro other hmem
      rw [htouched] at hmem
      cases List.mem_cons.mp hmem with
      | inl heq =>
          exact heq ▸ Nat.le_refl _
      | inr hold => exact h.touched other hold
    fresh := by
      intro hbefore
      have hother : op.asks ≠ some .mailbox := by
        intro hmailbox
        rw [hasks] at hmailbox
        cases hmailbox
        exact absurd hbefore (Nat.lt_irrefl _)
      rw [htrace]
      exact ((traced_messages op a s.2).right hother).trans (h.fresh hbefore)
    due := by
      intro other hgoal hbefore
      rw [htrace]
      exact (h.due other hgoal hbefore).tracedOn
    exits := by
      intro hbefore
      rw [htouched]
      exact List.mem_cons_of_mem _ (h.exits hbefore)
    mails := by
      intro hbefore hreceive hcapacity
      rw [htouched]
      exact List.mem_cons_of_mem _ (h.mails hbefore hreceive hcapacity) }

theorem inside_stable : (laneDiscipline (V := V) A turn start goal β).Stable
    (Inside A turn start goal lane n) := by
  apply unseen_stable
  intro s s' hcursor _ _ htrace h
  exact h.same hcursor (by rw [htrace]) (by rw [htrace]) (by rw [htrace])
    (by rw [htrace])

def Sweepless (G : Trace -> Prop) : Prop :=
  forall trace, G trace -> G { trace with swept := false }

/-- Code that steers nowhere keeps what a visit knows. -/
theorem inside_keeps {G : Trace -> Prop} (hG : Sweepless G)
    (parts : List Part) :
    (unsteered V parts).Keeps (laneDiscipline A turn start goal β)
      (fun s => Inside A turn start goal lane n s ∧ G s.2) where
  stable := by
    apply inside_stable.and
    apply unseen_stable
    intro s s' _ _ _ htrace h
    rw [htrace]
    exact h
  op := by
    intro γ op hop s _ hs
    refine ⟨proper_of_asks (Op.asks_none hop.right) s.2, ?_⟩
    intro input s' a _ hexec _
    rcases tracing_exec hexec with ⟨hworld, htrace⟩
    have hcursor := Op.cursor_same hop.right hworld
    have hplain : s'.2 = traced op a s.2 := by
      rw [htrace]
      unfold tracedOn
      rw [Op.refuses_none hop.right]
      rfl
    refine ⟨?_, trivial⟩
    cases traced_other hop.right a s.2 with
    | inl hsame =>
        rw [hsame] at hplain
        refine ⟨hs.left.same hcursor ?_ ?_ ?_ ?_, ?_⟩
        · rw [hplain]
        · rw [hplain]
        · rw [hplain]
        · rw [hplain]
        · rw [hplain]
          exact hs.right
    | inr hunswept =>
        rw [hunswept] at hplain
        refine ⟨hs.left.same hcursor ?_ ?_ ?_ ?_, ?_⟩
        · rw [hplain]
        · rw [hplain]
        · rw [hplain]
        · rw [hplain]
        · rw [hplain]
          exact hG s.2 hs.right

end Loac

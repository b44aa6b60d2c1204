import Loac.Completion.Tidy

/-!
# Polls that finish replies

The mode tests of a poll are watched.  A poll leaves the ready queue tidy, or
one of its mode tests overlooked a reply that had just returned, and then that
reply is still in the queue when the poll is over.
-/

namespace Loac

open Interleave Interleave.Prog

variable {V α : Type} {A : ActorConfig} {w₀ : World V} {key : Key}
  {scheduled : ScheduledFuture}

/-- A mode test finds a change while a finished reply is still in the queue. -/
def Overlooks (w₀ : World V) : {α : Type} -> Op V α -> World V -> Prop
  | _, .differs expected, w =>
      w.control.mode ≠ expected ∧
        exists key, Readied w₀ w key ∧ w.sched.items.get? key ≠ none
  | _, _, _ => False

abbrev attended (w₀ : World V) (A : ActorConfig) :
    Machine (Op V) (World V × Prop) (Input V) EnvAct Unit :=
  (machine V A).watched (Overlooks w₀)

def CompletionDemands (w₀ : World V) : {α : Type} -> Op V α ->
    World V × Prop -> Prop
  | _, .user (.replyPoll key), s => s.2 ∨ ¬ Readied w₀ s.1 key
  | _, .sched (.takeReply key), s => s.2 ∨ (Mended w₀ ->
      exists scheduled reply, s.1.sched.items.get? key = some scheduled ∧
        scheduled.future = .completeReply (some reply))
  | _, _, _ => True

def completionDiscipline (w₀ : World V) (A : ActorConfig) :
    Discipline (attended w₀ A) where
  inv := fun _ => True
  admits := fun _ _ _ => True
  tolerates := fun _ _ => True
  demands := CompletionDemands w₀

theorem completion_lawful : (completionDiscipline w₀ A).Lawful where
  actor := fun _ _ _ _ _ _ _ _ _ => trivial
  env := fun _ _ _ _ _ _ => trivial

/-- No mode test has overlooked a reply, and the scheduler is tidy. -/
def Serene (w₀ : World V) (hand : Option Key) (s : World V × Prop) : Prop :=
  ¬ s.2 ∧ Tidy w₀ hand s.1

def Found (key : Key) (scheduled : ScheduledFuture) (s : World V × Prop) :
    Prop :=
  s.1.sched.items.get? key = some scheduled

def InHand (w₀ : World V) (key : Key) (s : World V × Prop) : Prop :=
  Serene w₀ (some key) s ∧ Readied w₀ s.1 key ∧
    s.1.sched.items.get? key ≠ none

def OutOfQueue (w₀ : World V) (key : Key) (s : World V × Prop) : Prop :=
  Serene w₀ (some key) s ∧ s.1.sched.items.get? key = none

def LeftBehind (w₀ : World V) (s : World V × Prop) : Prop :=
  s.2 ∧ exists key, Readied w₀ s.1 key ∧ s.1.sched.items.get? key ≠ none

/-!
## Single operations
-/

theorem attended_exec {op : Op V α} {input : Input V} {s s' : World V × Prop}
    {a : α} (h : (attended w₀ A).exec op input s = some (s', a)) :
    op.exec A input s.1 = some (s'.1, a) ∧
      s'.2 = (s.2 ∨ Overlooks w₀ op s.1) :=
  Machine.watched_exec h

theorem attended_env {e : EnvAct} {s s' : World V × Prop}
    (h : (attended w₀ A).env e s = some s') :
    e.exec A s.1 = some s'.1 ∧ s'.2 = s.2 :=
  Machine.watched_env h

theorem calm_stable (hand : Option Key) :
    (completionDiscipline w₀ A).Stable (Serene w₀ hand) := by
  intro e s s' _ _ henv hs
  rcases attended_env henv with ⟨henv, halarm⟩
  refine ⟨?_, EnvAct.tidy_exec henv hs.right⟩
  rw [halarm]
  exact hs.left

theorem items_stable (Q : Slots ScheduledFuture -> Prop) :
    (completionDiscipline w₀ A).Stable (fun s => Q s.1.sched.items) := by
  intro e s s' _ _ henv hs
  rcases attended_env henv with ⟨henv, _⟩
  rw [EnvAct.items_exec henv]
  exact hs

theorem readied_stable (key : Key) :
    (completionDiscipline w₀ A).Stable (fun s => Readied w₀ s.1 key) := by
  intro e s s' _ _ henv hs
  rcases attended_env henv with ⟨henv, _⟩
  unfold Readied at hs ⊢
  rw [EnvAct.life_exec henv]
  exact hs

theorem inHand_stable (key : Key) :
    (completionDiscipline w₀ A).Stable (InHand w₀ key) :=
  (calm_stable _).and ((readied_stable key).and
    (items_stable fun items => items.get? key ≠ none))

theorem outOfQueue_stable (key : Key) :
    (completionDiscipline w₀ A).Stable (OutOfQueue w₀ key) :=
  (calm_stable _).and (items_stable fun items => items.get? key = none)

theorem Tidy.attended (h : Tidy w₀ none w) (op : Op V α) :
    ¬ Overlooks w₀ op w := by
  intro hmarked
  unfold Overlooks at hmarked
  split at hmarked
  · rcases hmarked with ⟨_, key, hready, hget⟩
    exact hget ((h.others key (by simp)).gone hready)
  · exact hmarked

theorem OutOfQueue.attended {s : World V × Prop} (h : OutOfQueue w₀ key s)
    (op : Op V α) : ¬ Overlooks w₀ op s.1 := by
  intro hmarked
  unfold Overlooks at hmarked
  split at hmarked
  · rcases hmarked with ⟨_, other, hready, hget⟩
    by_cases heq : key = other
    · rw [← heq] at hget
      exact hget h.right
    · exact hget ((h.left.right.others other (by simpa using heq)).gone hready)
  · exact hmarked

theorem calm_op {hand : Option Key} {op : Op V α} {input : Input V}
    {s s' : World V × Prop} {a : α} (hop : op.tidies hand)
    (hunmarked : ¬ Overlooks w₀ op s.1)
    (hexec : (Loac.attended w₀ A).exec op input s = some (s', a))
    (h : Serene w₀ hand s) : Serene w₀ hand s' := by
  rcases attended_exec hexec with ⟨hexec, halarm⟩
  refine ⟨?_, tidy_op hop hexec h.right⟩
  rw [halarm]
  exact fun hor => hor.elim h.left hunmarked

def Op.plain : Op V α -> Prop
  | .user (.replyPoll _) => False
  | .sched (.takeReply _) => False
  | _ => True

theorem Op.plain_demands {op : Op V α} (h : op.plain) (s : World V × Prop) :
    CompletionDemands w₀ op s := by
  cases op with
  | user site => cases site <;> trivial
  | sched op => cases op <;> trivial
  | _ => trivial

theorem calm_keeps {X : World V × Prop -> Prop} (op : Op V α)
    (hplain : op.plain) (hop : op.tidies none) :
    Keeps (completionDiscipline w₀ A) (Serene w₀ none) X (perform op) := by
  intro s hs
  apply wp.op (calm_stable none) hs
  intro s _ hs
  refine ⟨Op.plain_demands hplain s, ?_⟩
  intro input s' a _ hexec _
  exact calm_op hop (hs.right.attended op) hexec hs

/-!
## Taking out a finished reply
-/

theorem outOfQueue_op {op : Op V α} {input : Input V} {s s' : World V × Prop}
    {a : α} (hop : op.tidies (some key))
    (hitems : op.schedules = true -> s'.1.sched.items = s.1.sched.items)
    (hexec : (attended w₀ A).exec op input s = some (s', a))
    (h : OutOfQueue w₀ key s) : OutOfQueue w₀ key s' := by
  refine ⟨calm_op hop (h.attended op) hexec h.left, ?_⟩
  rcases attended_exec hexec with ⟨hexec, _⟩
  have hsame : s'.1.sched.items = s.1.sched.items := by
    cases hschedules : op.schedules with
    | true => exact hitems hschedules
    | false => rw [Op.sched_exec hschedules hexec]
  rw [hsame]
  exact h.right

theorem Op.items_user {site : UserSite} {input : Input V} {step : UserStep V}
    {w w' : World V} (hpolls : site.part ≠ .polls)
    (hexec : (Op.user site).exec A input w = some (w', step)) :
    w'.sched.items = w.sched.items := by
  have hschedules := Op.user_schedules hexec
  revert hschedules
  generalize w'.sched = sched'
  intro hschedules
  cases hschedules with
  | nothing step _ => rfl
  | acquired key _ => rfl
  | released key _ => rfl
  | returned key value hsite =>
      rw [hsite] at hpolls
      exact absurd rfl hpolls

/-- Telling a caller what became of its message touches no reply. -/
theorem Op.answers_plain {op : Op V α}
    (hop : answerParts.contains op.part = true) :
    op.plain ∧ op.tidies hand ∧ forall (input : Input V) (w w' : World V) a,
      op.exec A input w = some (w', a) ->
        w'.sched.items = w.sched.items := by
  cases op with
  | user site =>
      have hpolls : site.part ≠ .polls := by
        intro hpart
        have hop : answerParts.contains site.part = true := hop
        rw [hpart] at hop
        cases hop
      have hcx : site.cx = none := by
        cases site <;> first
          | rfl
          | cases hop
      refine ⟨?_, ⟨hpolls, fun key h => ?_⟩, fun input w w' a hexec =>
        Op.items_user hpolls hexec⟩
      · cases site <;> trivial
      · rw [hcx] at h
        cases h
  | sched op =>
      cases op <;> first
        | exact ⟨trivial, trivial, fun input w w' a hexec => by
            cases hexec
            rfl⟩
        | cases hop
  | _ =>
      refine ⟨trivial, trivial, ?_⟩
      intro input w w' a hexec
      rw [Op.sched_exec rfl hexec]

theorem answers_outOfQueue (key : Key) :
    (repertoire V answerParts).Keeps (completionDiscipline w₀ A)
      (OutOfQueue w₀ key) where
  stable := outOfQueue_stable key
  op := by
    intro β op hop s _ hs
    rcases Op.answers_plain (A := A) hop with ⟨hplain, htidies, hitems⟩
    refine ⟨Op.plain_demands hplain s, ?_⟩
    intro input s' b _ hexec _
    have hbase := (attended_exec hexec).left
    exact ⟨outOfQueue_op htidies (fun _ => hitems input _ _ b hbase) hexec hs,
      trivial⟩

theorem replyDrop_outOfQueue (key : Key) :
    Keeps (completionDiscipline w₀ A) (OutOfQueue w₀ key) (OutOfQueue w₀ key)
      (callUser (.replyDrop key false)) := by
  have hpolls : (UserSite.replyDrop key false).part ≠ .polls := by
    intro h
    cases h
  have hstep : Keeps (completionDiscipline w₀ A) (OutOfQueue w₀ key)
      (OutOfQueue w₀ key) (perform (.user (.replyDrop key false))) := by
    intro s hs
    apply wp.op (outOfQueue_stable key) hs
    intro s _ hs
    refine ⟨trivial, ?_⟩
    intro input s' a _ hexec _
    have hbase := (attended_exec hexec).left
    have htidies : (Op.user (.replyDrop key false) : Op V _).tidies
        (some key) := ⟨hpolls, fun _ h => h⟩
    exact outOfQueue_op htidies (fun _ => Op.items_user hpolls hbase)
      hexec hs
  refine Keeps.bind (Keeps.iter fun _ => Keeps.bind hstep fun step => ?_)
    (fun _ => Keeps.pure ())
  cases step with
  | continues => exact Keeps.again _
  | returns value => exact Keeps.done _
  | panics => exact Keeps.throw (fun _ h => h)

theorem dropScheduled_outOfQueue (key : Key) (scheduled : ScheduledFuture) :
    Keeps (completionDiscipline w₀ A) (OutOfQueue w₀ key) (OutOfQueue w₀ key)
      (scheduled.drop key false) := by
  have hkeeps : (repertoire V answerParts).Keeps (completionDiscipline w₀ A)
      (OutOfQueue w₀ key) := answers_outOfQueue key
  have hdrop : Keeps (completionDiscipline w₀ A) (OutOfQueue w₀ key)
      (OutOfQueue w₀ key) (callUser (.replyDrop key false)) :=
    replyDrop_outOfQueue key
  have hsend : Keeps (completionDiscipline w₀ A) (OutOfQueue w₀ key)
      (OutOfQueue w₀ key) (callUser .finalSend) :=
    (callUser_uses (repertoire_has.mono rfl)).keeps hkeeps
  unfold ScheduledFuture.drop
  split
  · exact Keeps.bind ((dropReply_uses repertoire_has _).keeps hkeeps)
      (fun _ => hdrop)
  · exact hdrop
  · exact Keeps.onExit hdrop hsend hsend
  · exact hdrop

theorem OutOfQueue.settled {s : World V × Prop} (h : OutOfQueue w₀ key s)
    (hfree : s.1.sched.lease ≠ some key) : Serene w₀ none s := by
  refine ⟨h.left.left, h.left.right.put ?_⟩
  exact {
    gone := fun _ => h.right
    free := fun _ => hfree
    owing := fun _ scheduled hget => by
      rw [h.right] at hget
      cases hget }

theorem complete_settles {s : World V × Prop} {X : World V × Prop -> Prop}
    (hs : InHand w₀ key s) :
    wp (completionDiscipline w₀ A) (Queue.complete key : P V Unit)
      (fun _ => Serene w₀ none) X s := by
  have hremove : wp (completionDiscipline w₀ A) (Queue.remove key : P V Unit)
      (fun _ => OutOfQueue w₀ key) X s := by
    apply wp.bind
    apply wp.op (inHand_stable key) hs
    intro s _ hs
    refine ⟨trivial, ?_⟩
    intro input s' removed _ hexec _
    have hout : OutOfQueue w₀ key s' := by
      rcases attended_exec hexec with ⟨hbase, _⟩
      have hunmarked : ¬ Overlooks w₀ (Op.sched (.remove key) : Op V _) s.1 :=
        fun h => h
      have htidies : (Op.sched (.remove key) : Op V _).tidies (some key) :=
        trivial
      refine ⟨calm_op htidies hunmarked hexec hs.left, ?_⟩
      rw [(Op.sched_result hbase).left]
      show (s.1.sched.items.remove key).get? key = none
      rw [Slots.get?_remove, if_pos rfl]
    cases removed with
    | none => exact wp.pure hout
    | some scheduled =>
        apply wp.bind
        apply wp.attempt
        apply wp.mono _ _ (dropScheduled_outOfQueue key scheduled s' hout)
        · intro _ s hs
          exact wp.pure hs
        · intro s hs
          have hkeeps : (repertoire V answerParts).Keeps
              (completionDiscipline w₀ A) (OutOfQueue w₀ key) :=
            answers_outOfQueue key
          exact hkeeps.perform (.transact .beginFailure) rfl s hs
  apply wp.seq hremove
  intro _ s hs
  apply wp.bind
  apply wp.op (outOfQueue_stable key) hs
  intro s _ hs
  refine ⟨trivial, ?_⟩
  intro input s' held _ hexec _
  rcases attended_exec hexec with ⟨hbase, halarm⟩
  rcases Op.sched_result hbase with ⟨hworld, hheld⟩
  have hs' : OutOfQueue w₀ key s' ∧ s'.1.sched.lease = held := by
    refine ⟨⟨⟨?_, ?_⟩, ?_⟩, ?_⟩
    · rw [halarm]
      exact fun hor => hor.elim hs.left.left (fun h => h)
    · rw [hworld]
      exact hs.left.right
    · rw [hworld]
      exact hs.right
    · rw [hworld]
      exact hheld
  apply wp.onlyIf
  · intro _
    apply wp.op (outOfQueue_stable key) hs'.left
    intro s _ hs
    refine ⟨trivial, ?_⟩
    intro input s' a _ hexec _
    have hout : OutOfQueue w₀ key s' := by
      have hbase := (attended_exec hexec).left
      have htidies : (Op.sched .forceRelease : Op V _).tidies (some key) :=
        trivial
      refine outOfQueue_op htidies (fun _ => ?_) hexec hs
      rw [(Op.sched_result hbase).left]
      rfl
    apply hout.settled
    have hbase := (attended_exec hexec).left
    have hlease : s'.1.sched.lease = none := by
      rw [(Op.sched_result hbase).left]
      rfl
    rw [hlease]
    exact fun h => by cases h
  · intro hother
    apply hs'.left.settled
    rw [hs'.right]
    exact of_decide_eq_false hother

/-!
## Polling one reply
-/

def Polled (w₀ : World V) (key : Key) (ready : Bool) : World V × Prop -> Prop :=
  if ready then InHand w₀ key else Serene w₀ none

theorem found_stable (key : Key) (scheduled : ScheduledFuture) :
    (completionDiscipline w₀ A).Stable
      (fun s => Serene w₀ none s ∧ Found key scheduled s) :=
  (calm_stable none).and (items_stable fun items =>
    items.get? key = some scheduled)

theorem returned_inHand {value : V} {input : Input V}
    {s s' : World V × Prop} (hs : Serene w₀ none s ∧ Found key scheduled s)
    (hexec : (attended w₀ A).exec (.user (.replyPoll key)) input s =
      some (s', .returns (some value))) :
    InHand w₀ key s' ∧
      Found key { scheduled with returned := true } s' := by
  rcases attended_exec hexec with ⟨hbase, halarm⟩
  have hcourse := Op.user_course hbase
  have hsched : s'.1.sched = s.1.sched.setReturned key := by
    have hschedules := Op.user_schedules hbase
    revert hschedules
    generalize s'.1.sched = sched'
    intro hschedules
    cases hschedules with
    | nothing step hreturns => exact absurd rfl (hreturns key value rfl)
    | returned other value' hsite =>
        cases hsite
        rfl
  have hitems : forall other, s'.1.sched.items.get? other =
      if other = key then
        (s.1.sched.items.get? other).map fun scheduled =>
          { scheduled with returned := true }
      else
        s.1.sched.items.get? other := by
    intro other
    rw [hsched]
    exact Slots.get?_modify _ _ _ _
  have hfound : Found key { scheduled with returned := true } s' := by
    unfold Found
    rw [hitems key, if_pos rfl, hs.right]
    rfl
  have hother : forall other, some key ≠ some other ->
      Readied w₀ s'.1 other -> Readied w₀ s.1 other := by
    intro other hne
    apply readied_of_course hcourse
    intro heq
    injection heq with hsite _
    injection hsite with hkey
    exact hne (congrArg some hkey)
  have htidy : Tidy w₀ (some key) s'.1 := by
    apply (hs.left.right.take key).mono (Op.grown_exec hbase)
    · intro other hready
      by_cases heq : some key = some other
      · apply Or.inr
        injection heq with hkey
        rw [← hkey]
        exact ⟨rfl, Slots.lt_next hfound⟩
      · exact Or.inl (hother other heq hready)
    · rw [hsched]
      exact Nat.le_refl _
    · intro other scheduled' hne hget
      have hdistinct : other ≠ key := by
        intro heq
        rw [heq] at hne
        exact hne rfl
      rw [hitems other, if_neg hdistinct] at hget
      exact ⟨scheduled', hget, fun howing => howing⟩
    · intro other _ _ hheld
      rw [hsched] at hheld
      exact hheld
  refine ⟨⟨⟨?_, htidy⟩, ?_, ?_⟩, hfound⟩
  · rw [halarm]
    exact fun hor => hor.elim hs.left.left (fun h => h)
  · unfold Readied
    rw [hcourse]
    show _ < List.count _ (Entry.user (.replyPoll key) .ready :: _)
    rw [List.count_cons_self]
    exact Nat.lt_succ_of_le (hs.left.right.grown _)
  · unfold Found at hfound
    rw [hfound]
    simp

def Returns (w₀ : World V) (key : Key) (scheduled : ScheduledFuture) :
    Option V -> World V × Prop -> Prop
  | none, s => Serene w₀ none s
  | some _, s => InHand w₀ key s ∧
      Found key { scheduled with returned := true } s

theorem runPoll_returns {s : World V × Prop}
    (hs : Serene w₀ none s ∧ Found key scheduled s) :
    wp (completionDiscipline w₀ A) (runUser (.replyPoll key))
      (Returns w₀ key scheduled) (fun _ => True) s := by
  apply wp.rounds (fun _ s => Serene w₀ none s ∧ Found key scheduled s) hs
  intro _ s hs
  apply wp.bind
  apply wp.op (found_stable key scheduled) hs
  intro s _ hs
  have hfresh : ¬ Readied w₀ s.1 key :=
    hs.left.right.unfinished (by simp) hs.right
  refine ⟨Or.inr hfresh, ?_⟩
  intro input s' step _ hexec _
  have hbase := (attended_exec hexec).left
  have hcalm : (forall value, step ≠ .returns (some value)) ->
      Serene w₀ none s' := by
    intro hreturns
    have halarm := (attended_exec hexec).right
    refine ⟨?_, tidy_user ?_ ?_ hbase hs.left.right⟩
    · rw [halarm]
      exact fun hor => hor.elim hs.left.left (fun h => h)
    · exact fun _ value _ => hreturns value
    · intro other hreach
      injection hreach with heq
      subst heq
      exact Or.inr hfresh
  cases step with
  | continues =>
      refine wp.again ⟨hcalm (by simp), ?_⟩
      have hitems : s'.1.sched.items = s.1.sched.items := by
        have hschedules := Op.user_schedules hbase
        revert hschedules
        generalize s'.1.sched = sched'
        intro hschedules
        cases hschedules with
        | nothing step _ => rfl
        | acquired other _ => rfl
        | released other _ => rfl
      unfold Found
      rw [hitems]
      exact hs.right
  | panics => exact wp.throw trivial
  | returns value =>
      cases value with
      | none => exact wp.done (hcalm (by simp))
      | some value => exact wp.done (returned_inHand hs hexec)

theorem paying_inHand (key : Key) :
    (repertoire V payingParts).Keeps (completionDiscipline w₀ A)
      (InHand w₀ key) where
  stable := inHand_stable key
  op := by
    intro β op hop s _ hs
    have hanswers : answerParts.contains op.part = true := by
      have hmem := List.contains_iff_mem.mp hop
      exact List.contains_iff_mem.mpr (List.mem_cons_of_mem _ hmem)
    rcases Op.answers_plain (A := A) hanswers with ⟨hplain, htidies, hitems⟩
    refine ⟨Op.plain_demands hplain s, ?_⟩
    intro input s' b _ hexec _
    have hbase := (attended_exec hexec).left
    have hunmarked : ¬ Overlooks w₀ op s.1 := by
      cases op with
      | differs expected => cases hop
      | _ => exact fun h => h
    refine ⟨⟨calm_op htidies hunmarked hexec hs.left,
      Op.readied_mono hbase hs.right.left, ?_⟩, trivial⟩
    rw [hitems input _ _ b hbase]
    exact hs.right.right

theorem inHand_take {op : SchedOp α} {input : Input V}
    {s s' : World V × Prop} {a : α} (hop : op.tidies (some key))
    (hitems : s.1.sched.items.get? key ≠ none ->
      (op.exec s.1.sched).1.items.get? key ≠ none)
    (hexec : (attended w₀ A).exec (.sched op) input s = some (s', a))
    (hs : InHand w₀ key s) : InHand w₀ key s' := by
  have hbase := (attended_exec hexec).left
  have htidies : (Op.sched op : Op V α).tidies (some key) := hop
  refine ⟨calm_op htidies (fun h => h) hexec hs.left,
    Op.readied_mono hbase hs.right.left, ?_⟩
  rw [(Op.sched_result hbase).left]
  exact hitems hs.right.right

theorem get?_modify_ne_none {slots : Slots ScheduledFuture} {key : Key}
    {f : ScheduledFuture -> ScheduledFuture}
    (h : slots.get? key ≠ none) : (slots.modify key f).get? key ≠ none := by
  rw [Slots.get?_modify, if_pos rfl]
  intro hnone
  rw [Option.map_eq_none_iff] at hnone
  exact h hnone

theorem takeReply_inHand {s : World V × Prop} {reply : Option DispatchReply}
    (howing : Mended w₀ -> scheduled.future ≠ .completeReply none)
    (hkind : scheduled.future = .completeReply reply)
    (hs : InHand w₀ key s ∧ Found key { scheduled with returned := true } s)
    {X : World V × Prop -> Prop} :
    wp (completionDiscipline w₀ A) (sched (.takeReply key))
      (fun _ => InHand w₀ key) X s := by
  have hstable : (completionDiscipline w₀ A).Stable (fun s =>
      InHand w₀ key s ∧ Found key { scheduled with returned := true } s) :=
    (inHand_stable key).and (items_stable fun items =>
      items.get? key = some { scheduled with returned := true })
  apply wp.op hstable hs
  intro s _ hs
  constructor
  · apply Or.inr
    intro hmended
    have hpays := howing hmended
    rw [hkind] at hpays
    cases reply with
    | none => exact absurd rfl hpays
    | some reply => exact ⟨_, reply, hs.right, hkind⟩
  · intro input s' taken _ hexec _
    have htidies : (SchedOp.takeReply key).tidies (some key) := rfl
    refine inHand_take htidies ?_ hexec hs.left
    intro hget
    show (s.1.sched.takeReply key).1.items.get? key ≠ none
    unfold Sched.takeReply
    split
    · exact get?_modify_ne_none hget
    · exact hget

theorem takeFinal_inHand {X : World V × Prop -> Prop} :
    Keeps (completionDiscipline w₀ A) (InHand w₀ key) X
      (sched (.takeFinal key) : P V Bool) := by
  intro s hs
  apply wp.op (inHand_stable key) hs
  intro s _ hs
  refine ⟨trivial, ?_⟩
  intro input s' final _ hexec _
  have htidies : (SchedOp.takeFinal key).tidies (some key) := trivial
  refine inHand_take htidies ?_ hexec hs
  intro hget
  show (s.1.sched.takeFinal key).1.items.get? key ≠ none
  unfold Sched.takeFinal
  split
  · exact get?_modify_ne_none hget
  · exact hget

theorem pollWithTask_polled {s : World V × Prop}
    (hs : Serene w₀ none s ∧ Found key scheduled s) :
    wp (completionDiscipline w₀ A) (scheduled.pollWithTask key)
      (Polled w₀ key) (fun _ => True) s := by
  have hpaying : (repertoire V payingParts).Keeps (completionDiscipline w₀ A)
      (InHand w₀ key) := paying_inHand key
  have howing : Mended w₀ -> scheduled.future ≠ .completeReply none :=
    fun hmended => (hs.left.right.others key (by simp)).owing hmended scheduled
      hs.right
  have hregister : wp (completionDiscipline w₀ A) (sched (.register key))
      (fun _ s => Serene w₀ none s ∧ Found key scheduled s) (fun _ => True) s := by
    apply wp.op (found_stable key scheduled) hs
    intro s _ hs
    refine ⟨trivial, ?_⟩
    intro input s' a _ hexec _
    have htidies : (Op.sched (.register key) : Op V _).tidies none := trivial
    refine ⟨calm_op htidies (fun h => h) hexec hs.left, ?_⟩
    unfold Found
    rw [(Op.sched_result (attended_exec hexec).left).left]
    exact hs.right
  apply wp.seq hregister
  intro _ s hs
  cases hkind : scheduled.future with
  | completeReply reply =>
      apply wp.seq (runPoll_returns hs)
      intro value s hs
      cases value with
      | none => exact wp.pure hs
      | some value =>
          apply wp.seq (takeReply_inHand howing hkind hs)
          intro taken s hs
          cases taken with
          | none => exact wp.throw trivial
          | some reply =>
              have hcomplete : (reply.complete (some value)).Uses
                  (repertoire V payingParts) :=
                completeReply_uses repertoire_has reply _
              apply wp.seq (((hcomplete.keeps hpaying).conseq
                (fun _ _ => trivial)) s hs)
              intro _ s hs
              exact wp.pure hs
  | finishStream final =>
      apply wp.seq (runPoll_returns hs)
      intro value s hs
      cases value with
      | none => exact wp.pure hs
      | some value =>
          apply wp.seq (takeFinal_inHand s hs.left)
          intro final s hs
          have hsend : (onlyIf final (callUser .finalSend) : P V Unit).Uses
              (repertoire V payingParts) :=
            Within.onlyIf (callUser_uses (repertoire_has.mono rfl))
          apply wp.seq (((hsend.keeps hpaying).conseq
            (fun _ _ => trivial)) s hs)
          intro _ s hs
          exact wp.pure hs

end Loac

import Loac.Bypass.Turns

/-!
# Calls

A call of `poll_turn` visits the lanes until one of them has something, and
leaves the cursor closer to every lane that it has not come to.
-/

namespace Loac

open Interleave Interleave.Prog

variable {V α β γ : Type} {A : ActorConfig} {w w' : World V}
  {turn : TurnContext} {start lane : ReplyLane} {goal : Option ReplyLane}
  {bound : Nat} {X : World V × Trace -> Prop} {s s' : World V × Trace}

/-!
## The circle of a call
-/

def Approached (start : ReplyLane) (goal : Option ReplyLane)
    (s : World V × Trace) : Prop :=
  forall lane, goal = some lane ->
    lane ∈ s.2.served ∨ s.1.sched.lease ≠ none ∨
      s.1.sched.cursor.distance lane < start.distance lane

structure CallEnds (A : ActorConfig) (turn : TurnContext) (start : ReplyLane)
    (goal : Option ReplyLane) (result : Poll SchedulerTurn)
    (s : World V × Trace) : Prop where
  pending : result = none -> s.2.wokeItself = true ∨
    s.1.sched.lease ≠ none ∨ forall lane, PassedOver A turn s lane
  approached : Approached start goal s

theorem CallEnds.ready {selected : SchedulerTurn}
    (h : Approached start goal s) :
    CallEnds A turn start goal (some selected) s where
  pending := by
    intro hnone
    cases hnone
  approached := h

theorem CallEnds.unnamed {selected : SchedulerTurn} (h : goal = none) :
    CallEnds A turn start goal (some selected) s := by
  apply CallEnds.ready
  intro lane hgoal
  rw [h] at hgoal
  cases hgoal

theorem Due.approached (hdue : Due start goal (start.distance lane + 1) s)
    (hcursor : s.1.sched.cursor = lane.next) : Approached start goal s := by
  intro other hgoal
  by_cases hbefore : start.distance other < start.distance lane + 1
  · exact Or.inl (hdue other hgoal hbefore)
  · apply Or.inr
    apply Or.inr
    rw [hcursor]
    exact ReplyLane.distance_closer (Nat.lt_of_not_le fun hle =>
      hbefore (Nat.lt_succ_of_le hle))

theorem PassedOver.same (hitems : s'.1.sched.items = s.1.sched.items)
    (htrace : s'.2 = s.2) (h : PassedOver A turn s lane) :
    PassedOver A turn s' lane := by
  cases lane with
  | mailbox =>
      unfold PassedOver
      rw [hitems, htrace]
      exact h
  | reply =>
      unfold PassedOver
      rw [hitems, htrace]
      exact h
  | childExit =>
      unfold PassedOver
      rw [htrace]
      exact h

theorem callEnds_stable {result : Poll SchedulerTurn} :
    (laneDiscipline (V := V) A turn start goal β).Stable
      (CallEnds A turn start goal result) := by
  apply unseen_stable
  intro s s' hcursor hlease hitems htrace h
  constructor
  · intro hnone
    rw [htrace, hlease]
    rcases h.pending hnone with hwoke | hheld | hpassed
    · exact Or.inl hwoke
    · exact Or.inr (Or.inl hheld)
    · exact Or.inr (Or.inr fun lane => (hpassed lane).same hitems htrace)
  · intro lane hgoal
    rw [htrace, hlease, hcursor]
    exact h.approached lane hgoal

theorem selected_ends {selected : SchedulerTurn}
    (hs : Due start goal (start.distance lane + 1) s) :
    wp (laneDiscipline A turn start goal β)
      (do
        sched (.setCursor lane.next)
        done (some selected) : P V (ReplyLane ⊕ Poll SchedulerTurn))
      (Splits (fun lane => Head A turn start goal (start.distance lane))
        (CallEnds A turn start goal)) X s := by
  have hdue : (laneDiscipline (V := V) A turn start goal β).Stable
      (Due start goal (start.distance lane + 1)) := by
    apply unseen_stable
    intro s s' _ _ _ htrace h
    unfold Due
    rw [htrace]
    exact h
  apply wp.seq (wp_setCursor hdue (R := Approached start goal) ?_ hs)
  · intro _ s hs
    exact wp.done (CallEnds.ready hs)
  · intro s s' hcursor _ _ htrace h
    apply Due.approached _ hcursor
    unfold Due
    rw [htrace]
    exact h

theorem Deferred.closer {trace : Trace} (h : Deferred start lane trace) :
    start.next.distance lane < start.distance lane := by
  rcases h.right with hlast | ⟨hstart, hlane⟩
  · revert hlast
    cases start <;> cases lane <;> decide
  · subst hstart hlane
    decide

theorem nothing_ends
    (hs : Head A turn start goal (start.distance lane + 1) s) :
    wp (laneDiscipline A turn start goal β)
      (if lane.next = start then do
          sched (.setCursor start.next)
          done none
        else
          again lane.next : P V (ReplyLane ⊕ Poll SchedulerTurn))
      (Splits (fun lane => Head A turn start goal (start.distance lane))
        (CallEnds A turn start goal)) X s := by
  rcases ReplyLane.distance_next start lane with
    ⟨hclosed, hlast⟩ | ⟨hopen, hnext⟩
  · simp only [if_pos hclosed]
    have hall : forall other,
        start.distance other < start.distance lane + 1 := by
      intro other
      rw [hlast]
      exact Nat.lt_succ_of_le (ReplyLane.distance_le_two start other)
    apply wp.seq (wp_setCursor head_stable
      (R := CallEnds A turn start goal none) ?_ hs)
    · intro _ s hs
      exact wp.done hs
    · intro s s' hcursor _ hitems htrace h
      constructor
      · intro _
        apply Or.inr
        apply Or.inr
        intro other
        exact (h.passed other (hall other)).same hitems htrace
      · intro other hgoal
        rw [htrace, hcursor]
        cases h.due other hgoal (hall other) with
        | inl hserved => exact Or.inl hserved
        | inr hdeferred => exact Or.inr (Or.inr hdeferred.closer)
  · simp only [if_neg hopen]
    apply wp.again
    show Head A turn start goal (start.distance lane.next) s
    rw [hnext]
    exact hs

theorem pollLanes_ends (hs : Head A turn start goal 0 s) :
    wp (laneDiscipline A turn start goal β) (pollLanes A turn start)
      (CallEnds A turn start goal) (fun _ => True) s := by
  apply wp.rounds (fun lane => Head A turn start goal (start.distance lane))
  · rw [ReplyLane.distance_self]
    exact hs
  intro lane s hs
  apply wp.seq (wp_differs head_stable hs)
  intro changed s hs
  cases changed with
  | true => exact wp.done (CallEnds.unnamed (goal_none hs.right))
  | false =>
      have hwaits : Waits A turn goal s :=
        fun other hgoal => (hs.right other hgoal).right.right.right
      apply wp.seq (visit_visits lane ⟨hs.left, hwaits⟩)
      intro visit s hs
      cases visit with
      | nothing => exact nothing_ends hs
      | selected selected => exact selected_ends hs
      | leave result =>
          apply wp.done
          cases result with
          | some selected => exact CallEnds.unnamed hs
          | none =>
              constructor
              · intro _
                rcases hs.right with hheld | hwoke
                · exact Or.inr (Or.inl hheld)
                · exact Or.inl hwoke.left
              · intro other hgoal
                rcases hs.right with hheld | hwoke
                · exact Or.inr (Or.inl hheld)
                · exact hs.left.approached hwoke.right other hgoal

/-!
## A held lease
-/

/-- Code that steers nowhere is proper wherever it runs. -/
theorem unsteered_keeps (parts : List Part) :
    (unsteered V parts).Keeps (laneDiscipline A turn start goal β)
      (fun _ => True) where
  stable := Discipline.Stable.true
  op := fun _ hop s _ _ =>
    ⟨proper_of_asks (Op.asks_none hop.right) s.2,
      fun _ _ _ _ _ _ => ⟨trivial, trivial⟩⟩

def Starts (start : ReplyLane) (s : World V × Trace) : Prop :=
  s.1.sched.cursor = start ∧ s.2 = Trace.new

theorem starts_stable : (laneDiscipline (V := V) A turn start goal β).Stable
    (Starts start) := by
  apply unseen_stable
  intro s s' hcursor _ _ htrace h
  exact ⟨hcursor.trans h.left, htrace.trans h.right⟩

theorem held_stable {key : Option Key} :
    (laneDiscipline (V := V) A turn start goal β).Stable
      (fun s => s.1.sched.lease = key) := by
  apply unseen_stable
  intro s s' _ hlease _ _ h
  exact hlease.trans h

def KeepsLease (result : ReplyPoll) (s : World V × Trace) : Prop :=
  result ≠ .progress -> s.1.sched.lease ≠ none

theorem takeReady_leased {key : Key}
    (hs : Starts start s ∧ s.1.sched.lease = some key) :
    wp (laneDiscipline A turn start goal β) (sched (.takeReady key))
      (fun _ s => s.1.sched.lease = some key) X s := by
  apply wp.op (starts_stable.and held_stable) hs
  intro s _ hs
  constructor
  · constructor
    · intro lane _ other hmem
      rw [hs.left.right] at hmem
      cases hmem
    · intro hasks
      cases hasks
  · intro input s' _ _ hexec _
    have hsched : s'.1.sched = (s.1.sched.takeReady key).1 := by
      rw [(Op.sched_result (tracing_exec hexec).left).left]
      rfl
    rw [hsched]
    unfold Sched.takeReady
    split
    · exact hs.right
    · exact hs.right

theorem pollLeased_ends {key : Key}
    (hs : Starts start s ∧ s.1.sched.lease = some key) :
    wp (laneDiscipline A turn start goal β) (Queue.pollLeased turn key)
      KeepsLease (fun _ => True) s := by
  apply wp.seq (wp_reads (starts_stable.and held_stable) (fun _ => rfl) rfl
    (fun _ _ => rfl) hs)
  intro scheduled s hs
  cases scheduled with
  | none =>
      have hrelease : wp (laneDiscipline A turn start goal β)
          (sched .forceRelease) (fun _ _ => True) (fun _ => True) s := by
        apply wp.op Discipline.Stable.true trivial
        intro s _ _
        exact ⟨proper_of_asks rfl s.2, fun _ _ _ _ _ _ => trivial⟩
      apply wp.seq hrelease
      intro _ s _
      exact wp.pure (fun hother => absurd rfl hother)
  | some scheduled =>
      apply wp.seq (takeReady_leased hs.left)
      intro ready s hs
      cases ready with
      | false =>
          apply wp.pure
          intro _
          rw [hs]
          exact Option.some_ne_none key
      | true =>
          apply wp.seq ((pollWithTask_calm unsteered_calm key scheduled).keeps
            (unsteered_keeps pollParts) s trivial)
          intro finished s hs
          apply wp.seq (wp_reads Discipline.Stable.true (fun _ => rfl) rfl
            (fun _ _ => rfl) hs)
          intro held s hs
          apply wp.seq (wp_differs held_stable hs.right.symm)
          intro changed s hs
          cases changed with
          | true => exact wp.pure (fun hother => absurd rfl hother)
          | false =>
              cases finished with
              | true =>
                  apply wp.seq ((complete_calm unsteered_calm key).keeps
                    (unsteered_keeps clearParts) s trivial)
                  intro _ s _
                  exact wp.pure (fun hother => absurd rfl hother)
              | false =>
                  by_cases hkey : held = some key
                  · simp only [if_pos hkey]
                    apply wp.pure
                    intro _
                    rw [hs.left]
                    show held ≠ none
                    rw [hkey]
                    exact Option.some_ne_none key
                  · simp only [if_neg hkey]
                    exact wp.pure (fun hother => absurd rfl hother)

/-!
## A call
-/

def Unheld (goal : Option ReplyLane) (s : World V × Trace) : Prop :=
  forall lane, goal = some lane -> s.1.sched.lease = none

theorem unheld_stable : (laneDiscipline (V := V) A turn start goal β).Stable
    (Unheld goal) := by
  apply unseen_stable
  intro s s' _ hlease _ _ h lane hgoal
  exact hlease.trans (h lane hgoal)

theorem leased_ends {key : Key}
    (hs : (Starts start s ∧ Unheld goal s) ∧ s.1.sched.lease = some key) :
    wp (laneDiscipline A turn start goal β)
      (do
        match ← Queue.poll turn with
        | .progress => return some .progress
        | _ => return none : P V (Poll SchedulerTurn))
      (CallEnds A turn start goal) (fun _ => True) s := by
  have hgoal : Approached start goal = fun (_ : World V × Trace) => True := by
    funext s'
    apply eq_true
    intro lane hlane
    have hnone := hs.left.right lane hlane
    rw [hs.right] at hnone
    cases hnone
  have hpoll : wp (laneDiscipline A turn start goal β) (Queue.poll turn)
      KeepsLease (fun _ => True) s := by
    apply wp.seq (wp_reads (starts_stable.and held_stable) (fun _ => rfl) rfl
      (fun _ _ => rfl) ⟨hs.left.left, hs.right⟩)
    intro held s hs
    have hheld : held = some key := hs.right.trans hs.left.right
    subst hheld
    exact pollLeased_ends hs.left
  have hends : forall s' : World V × Trace, s'.1.sched.lease ≠ none ->
      CallEnds A turn start goal none s' := by
    intro s' hlease
    exact ⟨fun _ => Or.inr (Or.inl hlease), by rw [hgoal]; trivial⟩
  apply wp.seq hpoll
  intro result s hs
  cases result with
  | progress => exact wp.pure (CallEnds.ready (by rw [hgoal]; trivial))
  | pending => exact wp.pure (hends s (hs (by simp)))
  | leased => exact wp.pure (hends s (hs (by simp)))
  | budgetExhausted => exact wp.pure (hends s (hs (by simp)))

theorem Starts.head (h : Starts start s) (hlease : s.1.sched.lease = none) :
    Head A turn start goal 0 s where
  cursor := h.left
  lease := hlease
  touched := by
    intro other hmem
    rw [h.right] at hmem
    cases hmem
  fresh := by
    intro _
    rw [h.right]
    rfl
  due := fun _ _ hbound => absurd hbound (Nat.not_lt_zero _)
  passed := fun _ hbound => absurd hbound (Nat.not_lt_zero _)

theorem pollTurn_ends (hs : Starts start s) :
    wp (laneDiscipline A turn start goal β) (MailboxRuntime.pollTurn A turn)
      (CallEnds A turn start goal) (fun _ => True) s := by
  apply wp.seq (wp_differs starts_stable hs)
  intro changed s hs
  cases changed with
  | true => exact wp.pure (CallEnds.unnamed (goal_none hs.right))
  | false =>
      have hunheld : Unheld goal s :=
        fun lane hgoal => (hs.right lane hgoal).right.right.left
      have hheld : wp (laneDiscipline A turn start goal β) Queue.isLeased
          (fun leased s => (Starts start s ∧ Unheld goal s) ∧
            leased = s.1.sched.lease.isSome) (fun _ => True) s := by
        apply wp.seq (wp_reads (starts_stable.and unheld_stable) (fun _ => rfl)
          rfl (fun _ _ => rfl) ⟨hs.left, hunheld⟩)
        intro held s hs
        exact wp.pure ⟨hs.left, congrArg Option.isSome hs.right⟩
      apply wp.seq hheld
      intro leased s hs
      cases leased with
      | true =>
          rcases Option.isSome_iff_exists.mp hs.right.symm with ⟨key, hkey⟩
          exact leased_ends ⟨hs.left, hkey⟩
      | false =>
          have hnone : s.1.sched.lease = none :=
            Option.isNone_iff_eq_none.mp
              (Option.isSome_eq_false_iff.mp hs.right.symm)
          apply wp.seq (wp_reads (starts_stable.and held_stable) (fun _ => rfl)
            rfl (fun _ _ => rfl) ⟨hs.left.left, hnone⟩)
          intro cursor s hs
          have hcursor : cursor = start := hs.right.trans hs.left.left.left
          subst hcursor
          exact pollLanes_ends (hs.left.left.head hs.left.right)

end Loac

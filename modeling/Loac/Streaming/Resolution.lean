import Loac.Interleave.Solo
import Loac.Streaming.Wakes

/-!
# Resolution

Finishing a streamed reply takes a bounded number of steps once the handler has
returned or is gone, whatever branch each poll of the selection starts with.
-/

namespace Loac

open Interleave Interleave.Prog

variable {T F α β : Type} {s s' : Exchange T F} {act : HandlerAct T F}
  {kept : Prop} {k : Nat} {items final : Bool}

/-- Regular states, in runs in which the caller may have to keep its reply. -/
def streamDiscipline (T F : Type) (kept : Prop) :
    Discipline (streaming T F) where
  inv := Regular kept
  admits := fun _ input _ => kept -> input ≠ .cancel ∧ input ≠ .act .drop
  tolerates := fun _ _ => True
  demands := Entitled kept

theorem stream_lawful : (streamDiscipline T F kept).Lawful where
  actor := fun _ _ _ _ _ hs hop _ hexec => StreamOp.sound hs hop hexec
  env := fun _ _ _ hs _ henv => HandlerAct.sound hs henv

/-!
## Assertions
-/

/-- Whether the caller is woken when there is an item, or there will be none. -/
def ItemWatch (s : Exchange T F) : Prop :=
  s.task = true ∨ s.itemWaker = true ∨ s.items = [] ∧ s.out = .dropped

def FinalWatch (s : Exchange T F) : Prop :=
  s.task = true ∨ s.finalWaker = true

/-- A caller that finishes, with so many steps left besides the items. -/
structure Finishes (k : Nat) (items final : Bool) (s : Exchange T F) :
    Prop where
  finishing : s.finishing = true
  held : s.held = true
  paid : s.isDecided = true -> s.steps + 4 * s.items.length + k <= finishSteps
  items : items = true -> ItemWatch s
  final : final = true -> FinalWatch s

theorem Finishes.weaken {few : Nat} (h : Finishes k items final s)
    (hless : few <= k) : Finishes few false false s where
  finishing := h.finishing
  held := h.held
  paid := fun hdecided => Nat.le_trans (by omega) (h.paid hdecided)
  items := by
    intro hwatch
    cases hwatch
  final := by
    intro hwatch
    cases hwatch

theorem ItemWatch.handled (hstep : Handled s s') (h : ItemWatch s) :
    ItemWatch s' := by
  rcases h with htask | hwaker | ⟨hempty, hdropped⟩
  · exact Or.inl (hstep.task htask)
  · rcases hstep.itemWaker with ⟨hsame, _⟩ | ⟨_, hwoken⟩
    · exact Or.inr (Or.inl (hsame.trans hwaker))
    · exact Or.inl (hwoken hwaker)
  · apply Or.inr
    apply Or.inr
    refine ⟨?_, hstep.out hdropped⟩
    rcases hstep.items with ⟨hitems, _⟩ | ⟨_, hout, _⟩
    · exact hitems.trans hempty
    · rw [hdropped] at hout
      cases hout

theorem FinalWatch.handled (hstep : Handled s s') (h : FinalWatch s) :
    FinalWatch s' := by
  rcases h with htask | hwaker
  · exact Or.inl (hstep.task htask)
  · rcases hstep.finalWaker with ⟨hsame, _⟩ | ⟨_, hwoken⟩
    · exact Or.inr (hsame.trans hwaker)
    · exact Or.inl (hwoken hwaker)

/-- While there is no final value, nothing was counted. -/
theorem Regular.fresh (hs : Regular kept s) (hwaits : s.isDecided = false) :
    s.steps = 0 := by
  apply hs.idle
  rw [hwaits, Bool.and_false]

/-- A decision comes before any step is counted, and ends all writes. -/
theorem Finishes.handled (hk : k <= 8) (hs : Regular kept s)
    (hs' : Regular kept s') (hstep : Handled s s') (h : Finishes k items final s) :
    Finishes k items final s' where
  finishing := hstep.finishing.trans h.finishing
  held := hstep.held.trans h.held
  paid := by
    intro hdecided'
    rw [hstep.steps]
    cases hdecided : s.isDecided with
    | false =>
        have hslots := hs'.slots
        rw [hs.fresh hdecided]
        unfold finishSteps
        omega
    | true =>
        rcases hstep.items with ⟨hitems, _⟩ | ⟨hrunning, _⟩
        · rw [hitems]
          exact h.paid hdecided
        · have hagreed := hs.agreed
          rw [hrunning] at hagreed
          have hwaits : s.final = .waiting := hagreed
          unfold Exchange.isDecided at hdecided
          rw [hwaits] at hdecided
          cases hdecided
  items := fun hwatch => (h.items hwatch).handled hstep
  final := fun hwatch => (h.final hwatch).handled hstep

theorem finishes_stable (hk : k <= 8) :
    (streamDiscipline T F kept).Stable (Finishes k items final) := by
  intro act s s' hs _ henv h
  exact h.handled hk hs (HandlerAct.sound hs henv) (HandlerAct.handled hs.toCarrying henv)

theorem Finishes.affords (h : Finishes (k + 1) items final s) : s.Affords := by
  intro _ hdecided
  have hpaid := h.paid hdecided
  omega

theorem Finishes.allowed {op : StreamOp T F α}
    (h : Finishes (k + 1) items final s) (hnext : op.isNext = false)
    (hhear : op.isHear = false)
    (hattended : op.isSuspend = true -> Attended s) : Entitled kept op s where
  held := h.held
  affords := h.affords
  reads := fun _ => hnext
  attended := hattended
  gives := StreamOp.gives_of_finishing hnext hhear

theorem Finishes.count (h : Finishes (k + 1) items final s) :
    Finishes k items final s.count := by
  unfold Exchange.count
  split
  · exact {
      h with
      paid := by
        intro hdecided
        have hpaid := h.paid hdecided
        show s.steps + 1 + 4 * s.items.length + k <= finishSteps
        omega }
  · exact {
      h with
      paid := by
        intro hdecided
        have hpaid := h.paid hdecided
        omega }

/-!
## Operations
-/

theorem wp_finishes {op : StreamOp T F α}
    {Q : α -> Exchange T F -> Prop} {X : Exchange T F -> Prop}
    {P : Exchange T F -> Prop} (hk : k < 8)
    (hnext : op.isNext = false) (hhear : op.isHear = false)
    (hattended : op.isSuspend = true -> items = true ∧ final = true)
    (hP : (streamDiscipline T F kept).Stable P)
    (hop : forall s input s' a, Regular kept s -> P s ->
      Finishes (k + 1) items final s ->
      (kept -> input ≠ .cancel ∧ input ≠ .act .drop) ->
      op.exec input s = some (s', a) -> Q a s')
    (hs : Finishes (k + 1) items final s ∧ P s) :
    wp (streamDiscipline T F kept) (Prog.perform op) Q X s := by
  apply wp.op ((finishes_stable hk).and hP) hs
  intro s hinv hs
  constructor
  · apply hs.left.allowed hnext hhear
    intro hsuspend
    rcases hattended hsuspend with ⟨hitems, hfinal⟩
    intro hasleep
    rcases hs.left.final hfinal with htask | hfinalWaker
    · rw [hasleep] at htask
      cases htask
    · refine ⟨?_, fun _ => hfinalWaker⟩
      rcases hs.left.items hitems with htask | hwaker | hempty
      · rw [hasleep] at htask
        cases htask
      · exact Or.inl hwaker
      · exact Or.inr hempty
  · intro input s' a hadmits hexec _
    exact hop s input s' a hinv hs.right hs.left hadmits hexec

def Exhausted (s : Exchange T F) : Prop :=
  s.items = [] ∧ s.out = .dropped

theorem ended_stable : (streamDiscipline T F kept).Stable Exhausted := by
  intro act s s' hs _ henv h
  have hstep := HandlerAct.handled hs.toCarrying henv
  rcases hstep.items with ⟨hitems, _⟩ | ⟨_, hout, _⟩
  · exact ⟨hitems.trans h.left, hstep.out h.right⟩
  · rw [h.right] at hout
    cases hout

def ItemPolled (k : Nat) (final : Bool) : ItemPoll T -> Exchange T F -> Prop
  | .item _, s => Finishes (k + 4) false final s
  | .ended, s => Finishes k true final s ∧ Exhausted s
  | .pending, s => Finishes k true final s

theorem Exchange.pop_finishes {item : T} {rest : List T}
    (hitems : s.items = item :: rest) (h : Finishes k items final s) :
    Finishes (k + 4) false final (s.pop item rest) := by
  have hpop : s.pop item rest =
      { s with items := rest, blocked := false,
               discarded := s.discarded ++ [item] } := by
    unfold Exchange.pop
    rw [if_pos h.finishing]
  rw [hpop]
  exact {
    h with
    paid := by
      intro hdecided
      have hpaid := h.paid hdecided
      rw [hitems, List.length_cons] at hpaid
      show s.steps + 4 * rest.length + (k + 4) <= finishSteps
      omega
    items := by
      intro hwatch
      cases hwatch }

theorem Exchange.pollRecv_finishes (h : Finishes k items final s) :
    ItemPolled k final s.pollRecv.2 s.pollRecv.1 := by
  unfold Exchange.pollRecv
  split
  · exact Exchange.pop_finishes (by assumption) h
  · split
    · have hended : Exhausted s := ⟨by assumption, by assumption⟩
      exact ⟨{ h with items := fun _ => Or.inr (Or.inr hended) }, hended⟩
    · exact { h with items := fun _ => Or.inr (Or.inl rfl) }

theorem pollRecv_finishes {X : Exchange T F -> Prop} (hk : k < 8)
    (hs : Finishes (k + 1) false final s) :
    wp (streamDiscipline T F kept) (perform .pollRecv) (ItemPolled k final) X
      s := by
  apply wp_finishes hk rfl rfl (by intro h; cases h) Discipline.Stable.true _
    ⟨hs, trivial⟩
  intro s input s' poll _ _ hs _ hexec
  have hresult : s.count.pollRecv = (s', poll) := Option.some.inj hexec
  have hpolled := Exchange.pollRecv_finishes hs.count
  rw [hresult] at hpolled
  exact hpolled

def Results : Except CallError F -> Exchange T F -> Prop
  | .ok value, s => s.final = .sent value
  | .error error, s => error = .responseLost ∧ s.final = .closed

theorem results_stable {result : Except CallError F} :
    (streamDiscipline T F kept).Stable (Results result) := by
  intro act s s' hs _ henv h
  have hstep := HandlerAct.handled hs.toCarrying henv
  cases result with
  | ok value =>
      have hsent : s.final = .sent value := h
      have hdecided : s.isDecided = true := by
        unfold Exchange.isDecided
        rw [hsent]
      exact (hstep.final hdecided).trans hsent
  | error error =>
      have hdecided : s.isDecided = true := by
        unfold Exchange.isDecided
        rw [h.right]
      exact ⟨h.left, (hstep.final hdecided).trans h.right⟩

def FinalPolled (k : Nat) (items : Bool) : FinalPoll F -> Exchange T F -> Prop
  | .value value, s => Finishes k items false s ∧ Results (.ok value) s
  | .lost, s => Finishes k items false s ∧ Results (.error .responseLost) s
  | .pending, s => Finishes 8 items true s

theorem Exchange.pollFinal_finishes (h : Finishes k items final s) :
    FinalPolled k items s.pollFinal.2 s.pollFinal.1 := by
  have hunwatched : Finishes k items false s :=
    { h with
      final := by
        intro hwatch
        cases hwatch }
  unfold Exchange.pollFinal
  split
  · exact ⟨hunwatched, by assumption⟩
  · exact ⟨hunwatched, rfl, by assumption⟩
  · rename_i hwaits
    exact {
      h with
      paid := by
        intro hdecided
        have hundecided : s.isDecided = false := by
          unfold Exchange.isDecided
          rw [hwaits]
        have hsame : s.isDecided = true := hdecided
        rw [hundecided] at hsame
        cases hsame
      final := fun _ => Or.inr rfl }

theorem pollFinal_finishes {X : Exchange T F -> Prop} (hk : k < 8)
    (hs : Finishes (k + 1) items false s) :
    wp (streamDiscipline T F kept) (perform .pollFinal) (FinalPolled k items) X
      s := by
  apply wp_finishes hk rfl rfl (by intro h; cases h) Discipline.Stable.true _
    ⟨hs, trivial⟩
  intro s input s' poll _ _ hs _ hexec
  have hresult : s.count.pollFinal = (s', poll) := Option.some.inj hexec
  have hpolled := Exchange.pollFinal_finishes hs.count
  rw [hresult] at hpolled
  exact hpolled

/-- The caller is polled again, or it drops the future that it awaits. -/
theorem suspend_finishes {P : Exchange T F -> Prop} {X : Exchange T F -> Prop}
    (hk : k < 8) (hP : (streamDiscipline T F kept).Stable P)
    (hframe : forall s : Exchange T F, P s -> P s.count ∧
      P { s.count with task := false })
    (hs : Finishes (k + 1) true true s ∧ P s) :
    wp (streamDiscipline T F kept) (perform .suspend)
      (fun resumed s => (Finishes k false false s ∧ P s) ∧
        (resumed = false -> ¬ kept)) X s := by
  apply wp_finishes hk rfl rfl (fun _ => ⟨rfl, rfl⟩) hP _ hs
  intro s input s' resumed _ hP' hs hadmits hexec
  have hcount := hs.count.weaken (Nat.le_refl k)
  cases input with
  | resume =>
      rw [StreamOp.exec] at hexec
      split at hexec
      · cases hexec
        exact ⟨⟨{ hcount with
                  items := by
                    intro hwatch
                    cases hwatch
                  final := by
                    intro hwatch
                    cases hwatch }, (hframe s hP').right⟩,
          by intro h; cases h⟩
      · cases hexec
  | cancel =>
      cases hexec
      exact ⟨⟨hcount, (hframe s hP').left⟩,
        fun _ hkept => (hadmits hkept).left rfl⟩
  | _ => cases hexec

/-!
## The selection
-/

namespace StreamReply

/-- What a selection comes to, by the branch that was ready. -/
def Chosen (kept : Prop) : Option (Selected F) -> Exchange T F -> Prop
  | some .item, s => Finishes 5 false false s
  | some .ended, s => Finishes 3 false false s ∧ Exhausted s
  | some (.result result), s => Finishes 2 false false s ∧ Results result s
  | none, s => Finishes 1 false false s ∧ ¬ kept

def ItemChosen (kept : Prop) (k : Nat) (final : Bool) :
    Option (Selected F) -> Exchange T F -> Prop
  | some selected, s => Chosen kept (some selected) s
  | none, s => Finishes k true final s

theorem itemBranch_chooses {X : Exchange T F -> Prop} (hk : k < 8)
    (hless : 3 <= k) (hs : Finishes (k + 1) false final s) :
    wp (streamDiscipline T F kept) itemBranch (ItemChosen kept k final) X s := by
  apply wp.seq (pollRecv_finishes hk hs)
  intro poll s hs
  cases poll with
  | item item => exact wp.pure (hs.weaken (by omega))
  | ended => exact wp.pure ⟨hs.left.weaken hless, hs.right⟩
  | pending => exact wp.pure hs

/-- What the branch of the final value comes to. -/
def ResultChosen (kept : Prop) (items : Bool) :
    Option (Selected F) -> Exchange T F -> Prop
  | some selected, s => Chosen kept (some selected) s
  | none, s => Finishes 8 items true s

theorem resultBranch_chooses {X : Exchange T F -> Prop} (hk : k < 8)
    (hless : 2 <= k) (hs : Finishes (k + 1) items false s) :
    wp (streamDiscipline T F kept) resultBranch (ResultChosen kept items) X
      s := by
  apply wp.seq (pollFinal_finishes hk hs)
  intro poll s hs
  cases poll with
  | value value => exact wp.pure ⟨hs.left.weaken hless, hs.right⟩
  | lost => exact wp.pure ⟨hs.left.weaken hless, hs.right⟩
  | pending => exact wp.pure hs

theorem suspend_chooses {X : Exchange T F -> Prop} (hk : k < 8)
    (hless : 5 <= k) (hs : Finishes (k + 1) true true s) :
    wp (streamDiscipline T F kept)
      (do
        if ← perform .suspend then
          again ()
        else
          done none : Caller T F (Unit ⊕ Option (Selected F)))
      (Splits (fun _ => Finishes 5 false false) (Chosen kept)) X s := by
  apply wp.seq (suspend_finishes hk Discipline.Stable.true
    (fun _ _ => ⟨trivial, trivial⟩) ⟨hs, trivial⟩)
  intro resumed s hs
  cases resumed with
  | true => exact wp.again (hs.left.left.weaken hless)
  | false =>
      exact wp.done ⟨hs.left.left.weaken (by omega), hs.right rfl⟩

theorem select_chooses {X : Exchange T F -> Prop}
    (hs : Finishes 5 false false s) :
    wp (streamDiscipline T F kept) select (Chosen kept) X s := by
  apply wp.rounds (fun _ => Finishes 5 false false) hs
  intro _ s hs
  have hbranch : wp (streamDiscipline T F kept) (perform .branch)
      (fun _ => Finishes 4 false false) X s := by
    apply wp_finishes (by decide) rfl rfl (by intro h; cases h)
      Discipline.Stable.true _ ⟨hs, trivial⟩
    intro s input s' itemFirst _ _ hs _ hexec
    cases input with
    | branch itemFirst =>
        cases hexec
        exact hs.count
    | _ => cases hexec
  apply wp.seq hbranch
  intro itemFirst s hs
  cases itemFirst with
  | true =>
      apply wp.seq (itemBranch_chooses (by decide) (by decide) hs)
      intro selected s hs
      cases selected with
      | some selected => exact wp.done hs
      | none =>
          apply wp.seq (resultBranch_chooses (by decide) (by decide) hs)
          intro selected s hs
          cases selected with
          | some selected => exact wp.done hs
          | none => exact suspend_chooses (by decide) (by decide) hs
  | false =>
      apply wp.seq (resultBranch_chooses (by decide) (by decide) hs)
      intro selected s hs
      cases selected with
      | some selected => exact wp.done hs
      | none =>
          apply wp.seq (itemBranch_chooses (by decide) (by decide) hs)
          intro selected s hs
          cases selected with
          | some selected => exact wp.done hs
          | none => exact suspend_chooses (by decide) (by decide) hs

/-!
## The result
-/

def Resolved (kept : Prop) : Option (Except CallError F) -> Exchange T F -> Prop
  | some result, s => Results result s
  | none, _ => ¬ kept

theorem resolved_stable {result : Option (Except CallError F)} :
    (streamDiscipline T F kept).Stable (Resolved kept result) := by
  cases result with
  | some result => exact results_stable
  | none => exact fun _ _ _ _ _ _ h => h

theorem Exhausted.watch (h : Exhausted s) (hs : Finishes k items final s) :
    Finishes k true final s :=
  { hs with items := fun _ => Or.inr (Or.inr h) }

theorem pollFinal_ended {X : Exchange T F -> Prop}
    (hs : Finishes 3 false false s ∧ Exhausted s) :
    wp (streamDiscipline T F kept) (perform .pollFinal)
      (fun poll s => FinalPolled 2 false poll s ∧ Exhausted s) X s := by
  apply wp_finishes (by decide) rfl rfl (by intro h; cases h) ended_stable _ hs
  intro s input s' poll _ hended hs _ hexec
  have hresult : s.count.pollFinal = (s', poll) := Option.some.inj hexec
  have hpolled := Exchange.pollFinal_finishes hs.count
  rw [hresult] at hpolled
  refine ⟨hpolled, ?_⟩
  have hcount : Exhausted s.count := by
    unfold Exchange.count
    split
    · exact hended
    · exact hended
  have hkeeps : Exhausted s.count.pollFinal.1 := by
    unfold Exchange.pollFinal
    split
    · exact hcount
    · exact hcount
    · exact hcount
  rw [hresult] at hkeeps
  exact hkeeps

theorem awaitFinal_resolves {X : Exchange T F -> Prop}
    (hs : Finishes 3 false false s ∧ Exhausted s) :
    wp (streamDiscipline T F kept) awaitFinal
      (fun result s => Finishes 1 false false s ∧ Resolved kept result s) X
      s := by
  apply wp.rounds (fun _ s => Finishes 3 false false s ∧ Exhausted s) hs
  intro _ s hs
  apply wp.seq (pollFinal_ended hs)
  intro poll s hs
  cases poll with
  | value value => exact wp.done ⟨hs.left.left.weaken (by decide), hs.left.right⟩
  | lost => exact wp.done ⟨hs.left.left.weaken (by decide), hs.left.right⟩
  | pending =>
      have hframe : forall s : Exchange T F, Exhausted s -> Exhausted s.count ∧
          Exhausted { s.count with task := false } := by
        intro s h
        unfold Exchange.count
        split
        · exact ⟨h, h⟩
        · exact ⟨h, h⟩
      apply wp.seq (suspend_finishes (by decide) ended_stable hframe
        ⟨Exhausted.watch hs.right hs.left, hs.right⟩)
      intro resumed s hs
      cases resumed with
      | true => exact wp.again ⟨hs.left.left.weaken (by decide), hs.left.right⟩
      | false =>
          exact wp.done ⟨hs.left.left.weaken (by decide), hs.right rfl⟩

theorem drainItems_resolves {X : Exchange T F -> Prop}
    {result : Except CallError F}
    (hs : Finishes 2 false false s ∧ Results result s) :
    wp (streamDiscipline T F kept) drainItems
      (fun _ s => Finishes 1 false false s ∧ Results result s) X s := by
  apply wp.rounds
    (fun _ s => Finishes 2 false false s ∧ Results result s) hs
  intro _ s hs
  have hpoll : wp (streamDiscipline T F kept) (perform .tryRecv)
      (fun item s => Finishes (if item.isSome then 2 else 1) false false s ∧
        Results result s) X s := by
    apply wp_finishes (by decide) rfl rfl (by intro h; cases h) results_stable _ hs
    intro s input s' item _ hresults hs _ hexec
    have hresult : s.count.tryRecv = (s', item) := Option.some.inj hexec
    have hcount : s.count.final = s.final := by
      unfold Exchange.count
      split <;> rfl
    have hpolled : Finishes (if s.count.tryRecv.2.isSome then 2 else 1) false
          false s.count.tryRecv.1 ∧ s.count.tryRecv.1.final = s.final := by
      unfold Exchange.tryRecv
      split
      · rename_i item rest hitems
        refine ⟨(Exchange.pop_finishes hitems hs.count).weaken (by simp), ?_⟩
        unfold Exchange.pop
        split
        · exact hcount
        · exact hcount
      · exact ⟨hs.count, hcount⟩
    rw [hresult] at hpolled
    refine ⟨hpolled.left, ?_⟩
    cases result with
    | ok value => exact hpolled.right.trans hresults
    | error error => exact ⟨hresults.left, hpolled.right.trans hresults.right⟩
  apply wp.seq hpoll
  intro item s hs
  cases item with
  | some item => exact wp.again hs
  | none => exact wp.done hs

theorem dropReply_resolves {X : Exchange T F -> Prop}
    {result : Option (Except CallError F)}
    (hs : Finishes 1 false false s ∧ Resolved kept result s) :
    wp (streamDiscipline T F kept) (perform .dropReply)
      (fun _ s => Resolved kept result s) X s := by
  apply wp_finishes (by decide) rfl rfl (by intro h; cases h) resolved_stable _ hs
  intro s input s' _ _ hresolved hs _ hexec
  cases hexec
  cases result with
  | none => exact hresolved
  | some result =>
      have hfinal : s.count.dropReply.final = s.final := by
        unfold Exchange.dropReply Exchange.count
        split <;> rfl
      cases result with
      | ok value => exact hfinal.trans hresolved
      | error error => exact ⟨hresolved.left, hfinal.trans hresolved.right⟩

theorem finish_resolves {X : Exchange T F -> Prop}
    (hs : Finishes 5 false false s) :
    wp (streamDiscipline T F kept) finish (Resolved kept) X s := by
  apply wp.seq (R := fun result s =>
    Finishes 1 false false s ∧ Resolved kept result s)
  · apply wp.rounds (fun _ => Finishes 5 false false) hs
    intro _ s hs
    apply wp.seq (select_chooses hs)
    intro selected s hs
    cases selected with
    | none => exact wp.done hs
    | some selected =>
        cases selected with
        | item => exact wp.again hs
        | ended =>
            apply wp.seq (awaitFinal_resolves hs)
            intro result s hs
            exact wp.done hs
        | result result =>
            apply wp.seq (drainItems_resolves hs)
            intro _ s hs
            exact wp.done hs
  · intro result s hs
    apply wp.seq (dropReply_resolves hs)
    intro _ s hs
    exact wp.pure hs

end StreamReply

end Loac

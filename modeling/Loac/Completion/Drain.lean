import Loac.Completion.Poll

/-!
# Polls of the ready queue

A leased poll tests the mode between the return of its reply and the removal,
and that is the only mode test that can overlook a reply.  A drain removes each
reply that returns before it tests the mode again.
-/

namespace Loac

open Interleave Interleave.Prog

variable {V α : Type} {A : ActorConfig} {w₀ : World V} {key : Key}
  {scheduled : ScheduledFuture} {s : World V × Prop}

def Concluded (w₀ : World V) (s : World V × Prop) : Prop :=
  Serene w₀ none s ∨ LeftBehind w₀ s

theorem find_finds {X : World V × Prop -> Prop} (key : Key)
    (hs : Serene w₀ none s) :
    wp (completionDiscipline w₀ A) (sched (.find key))
      (fun found s => Serene w₀ none s ∧
        forall scheduled, found = some scheduled -> Found key scheduled s)
      X s := by
  apply wp.op (calm_stable none) hs
  intro s _ hs
  refine ⟨trivial, ?_⟩
  intro input s' found _ hexec _
  have htidies : (Op.sched (.find key) : Op V _).tidies none := trivial
  refine ⟨calm_op htidies (fun h => h) hexec hs, ?_⟩
  intro scheduled hfound
  rcases Op.sched_result (attended_exec hexec).left with ⟨hworld, hresult⟩
  unfold Found
  rw [hworld]
  exact hresult.trans hfound

theorem takeReady_found {X : World V × Prop -> Prop}
    (hs : Serene w₀ none s ∧ Found key scheduled s) :
    wp (completionDiscipline w₀ A) (sched (.takeReady key))
      (fun _ s => Serene w₀ none s ∧ Found key scheduled s) X s := by
  apply wp.op (found_stable key scheduled) hs
  intro s _ hs
  refine ⟨trivial, ?_⟩
  intro input s' ready _ hexec _
  have htidies : (Op.sched (.takeReady key) : Op V _).tidies none := trivial
  refine ⟨calm_op htidies (fun h => h) hexec hs.left, ?_⟩
  unfold Found
  rw [(Op.sched_result (attended_exec hexec).left).left]
  show (s.1.sched.takeReady key).1.items.get? key = some scheduled
  unfold Sched.takeReady
  split <;> exact hs.right

theorem held_polled {X : World V × Prop -> Prop} {ready : Bool}
    (hs : Polled w₀ key ready s) :
    wp (completionDiscipline w₀ A) (sched .held)
      (fun _ => Polled w₀ key ready) X s := by
  cases ready with
  | false => exact calm_keeps (.sched .held) (by trivial) (by trivial) s hs
  | true =>
      have hs : InHand w₀ key s := hs
      apply wp.op (inHand_stable key) hs
      intro s _ hs
      refine ⟨trivial, ?_⟩
      intro input s' held _ hexec _
      have hheld : (SchedOp.held).tidies (some key) := trivial
      exact inHand_take hheld (fun h => h) hexec hs

theorem differs_polled {X : World V × Prop -> Prop} {ready : Bool}
    (expected : Mode) (hs : Polled w₀ key ready s) :
    wp (completionDiscipline w₀ A) (differs expected)
      (fun changed s =>
        if changed then Concluded w₀ s else Polled w₀ key ready s) X s := by
  cases ready with
  | false =>
      have hs : Serene w₀ none s := hs
      apply wp.mono _ (fun _ hX => hX)
        (calm_keeps (.differs expected) (by trivial) (by trivial) s hs)
      intro changed s hs
      cases changed with
      | false => exact hs
      | true => exact Or.inl hs
  | true =>
      have hs : InHand w₀ key s := hs
      apply wp.op (inHand_stable key) hs
      intro s _ hs
      refine ⟨trivial, ?_⟩
      intro input s' changed _ hexec _
      rcases attended_exec hexec with ⟨hbase, halarm⟩
      have hresult : s'.1 = s.1 ∧
          decide (s.1.control.mode ≠ expected) = changed := by
        rw [Op.exec] at hbase
        injection hbase with hbase
        injection hbase with hworld hchanged
        exact ⟨hworld.symm, hchanged⟩
      rcases hresult with ⟨hworld, hchanged⟩
      cases changed with
      | true =>
          apply Or.inr
          refine ⟨?_, key, ?_, ?_⟩
          · rw [halarm]
            exact Or.inr ⟨of_decide_eq_true hchanged, key, hs.right⟩
          · rw [hworld]
            exact hs.right.left
          · rw [hworld]
            exact hs.right.right
      | false =>
          have hmode : ¬ s.1.control.mode ≠ expected :=
            of_decide_eq_false hchanged
          refine ⟨⟨?_, ?_⟩, ?_, ?_⟩
          · rw [halarm]
            exact fun hor => hor.elim hs.left.left (fun h => hmode h.left)
          · rw [hworld]
            exact hs.left.right
          · rw [hworld]
            exact hs.right.left
          · rw [hworld]
            exact hs.right.right

theorem pollLeased_concludes (turn : TurnContext) (key : Key)
    (hs : Serene w₀ none s) :
    wp (completionDiscipline w₀ A) (Queue.pollLeased turn key)
      (fun _ => Concluded w₀) (fun _ => True) s := by
  apply wp.seq (find_finds key hs)
  intro found s hs
  cases found with
  | none =>
      apply wp.seq (calm_keeps (.sched .forceRelease) (by trivial) (by trivial)
        s hs.left)
      intro _ s hs
      exact wp.pure (Or.inl hs)
  | some scheduled =>
      apply wp.seq (takeReady_found ⟨hs.left, hs.right scheduled rfl⟩)
      intro ready s hs
      cases ready with
      | false => exact wp.pure (Or.inl hs.left)
      | true =>
          apply wp.seq (pollWithTask_polled hs)
          intro ready s hs
          apply wp.seq (held_polled hs)
          intro held s hs
          apply wp.seq (differs_polled turn.expectedMode hs)
          intro changed s hs
          cases changed with
          | true => exact wp.pure hs
          | false =>
              cases ready with
              | true =>
                  apply wp.seq (complete_settles hs)
                  intro _ s hs
                  exact wp.pure (Or.inl hs)
              | false =>
                  by_cases hheld : held = some key
                  · simp only [if_pos hheld]
                    exact wp.pure (Or.inl hs)
                  · simp only [if_neg hheld]
                    exact wp.pure (Or.inl hs)

theorem drain_calm (turn : TurnContext) (hs : Serene w₀ none s) :
    wp (completionDiscipline w₀ A) (Queue.drain turn)
      (fun _ => Serene w₀ none) (fun _ => True) s := by
  apply wp.rounds (fun _ => Serene w₀ none) hs
  intro state s hs
  rcases state with ⟨polled, completed⟩
  by_cases hbudget : polled < activePollBudget
  · simp only [if_pos hbudget]
    apply wp.seq (calm_keeps (.differs turn.expectedMode) (by trivial)
      (by trivial) s hs)
    intro changed s hs
    cases changed with
    | true => exact wp.done hs
    | false =>
        apply wp.seq (calm_keeps (.sched .popReady) (by trivial) (by trivial)
          s hs)
        intro key s hs
        cases key with
        | none => exact wp.done hs
        | some key =>
            apply wp.seq (find_finds key hs)
            intro found s hs
            cases found with
            | none => exact wp.again hs.left
            | some scheduled =>
                apply wp.seq (takeReady_found ⟨hs.left, hs.right _ rfl⟩)
                intro ready s hs
                cases ready with
                | false => exact wp.again hs.left
                | true =>
                    apply wp.seq (pollWithTask_polled hs)
                    intro ready s hs
                    cases ready with
                    | true =>
                        apply wp.seq (complete_settles hs)
                        intro _ s hs
                        exact wp.again hs
                    | false =>
                        apply wp.seq (held_polled hs)
                        intro held s hs
                        cases held with
                        | some _ => exact wp.done hs
                        | none => exact wp.again hs
  · simp only [if_neg hbudget]
    exact wp.done hs

theorem pollReady_calm (turn : TurnContext) (hs : Serene w₀ none s) :
    wp (completionDiscipline w₀ A) (Queue.pollReady turn)
      (fun _ => Serene w₀ none) (fun _ => True) s := by
  apply wp.seq (drain_calm turn hs)
  intro completed s hs
  cases completed with
  | none => exact wp.pure hs
  | some completed =>
      apply wp.seq (calm_keeps (.differs turn.expectedMode) (by trivial)
      (by trivial) s hs)
      intro changed s hs
      cases changed with
      | true => exact wp.pure hs
      | false =>
          apply wp.seq (calm_keeps (.sched (.readyIsEmpty turn)) (by trivial)
            (by trivial) s hs)
          intro empty s hs
          cases empty with
          | true =>
              cases completed <;> exact wp.pure hs
          | false =>
              apply wp.seq (calm_keeps .wakeTask (by trivial) (by trivial) s hs)
              intro _ s hs
              exact wp.pure hs

/-- A poll leaves the queue tidy, or a finished reply behind. -/
theorem poll_concludes (turn : TurnContext) (hs : Serene w₀ none s) :
    wp (completionDiscipline w₀ A) (Queue.poll turn)
      (fun _ => Concluded w₀) (fun _ => True) s := by
  apply wp.seq (calm_keeps (.sched .held) (by trivial) (by trivial) s hs)
  intro held s hs
  cases held with
  | some key => exact pollLeased_concludes turn key hs
  | none =>
      exact wp.mono (fun _ _ hs => Or.inl hs) (fun _ hX => hX)
        (pollReady_calm turn hs)

end Loac

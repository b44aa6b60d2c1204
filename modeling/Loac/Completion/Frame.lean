import Loac.Completion.Drain

/-!
# Finished replies over a whole life

No turn, dispatch or teardown makes a tidy scheduler untidy.  In a run whose
mode tests overlook nothing, no reply is therefore polled after it returned.
-/

namespace Loac

open Interleave Interleave.Prog

variable {V α : Type} {A : ActorConfig} {w₀ : World V} {key : Key}
  {s : World V × Prop}

/-- A mode test overlooked a reply, or the scheduler is tidy. -/
def Orderly (w₀ : World V) (s : World V × Prop) : Prop :=
  s.2 ∨ Serene w₀ none s

def Overlooked (s : World V × Prop) : Prop :=
  s.2

theorem overlooked_keeps :
    (Vocabulary.all : Vocabulary (Op V)).Keeps (completionDiscipline w₀ A)
      Overlooked where
  stable := by
    intro e s s' _ _ henv hs
    rcases attended_env henv with ⟨_, halarm⟩
    unfold Overlooked
    rw [halarm]
    exact hs
  op := by
    intro β op _ s _ hs
    have hdemands : CompletionDemands w₀ op s := by
      cases op with
      | user site => cases site <;> first
          | trivial
          | exact Or.inl hs
      | sched op => cases op <;> first
          | trivial
          | exact Or.inl hs
      | _ => trivial
    refine ⟨hdemands, ?_⟩
    intro input s' b _ hexec _
    rcases attended_exec hexec with ⟨_, halarm⟩
    refine ⟨?_, trivial⟩
    unfold Overlooked
    rw [halarm]
    exact Or.inl hs

theorem keeps_overlooked (p : P V α) :
    Keeps (completionDiscipline w₀ A) Overlooked Overlooked p :=
  (uses_all p).keeps overlooked_keeps

/-- Once a reply was overlooked, nothing more is claimed. -/
theorem orderly_of_calm {p : P V α} {X : World V × Prop -> Prop}
    (hX : forall s, Overlooked s -> X s)
    (hp : forall s, Serene w₀ none s ->
      wp (completionDiscipline w₀ A) p (fun _ => Orderly w₀) X s) :
    Keeps (completionDiscipline w₀ A) (Orderly w₀) X p := by
  intro s hs
  cases hs with
  | inl halarm =>
      exact wp.mono (fun _ _ h => Or.inl h) hX (keeps_overlooked p s halarm)
  | inr hcalm => exact hp s hcalm

/-- Parts whose operations neither poll nor build nor pay for a reply. -/
def Part.idles : Part -> Bool
  | .polls => false
  | .drops => false
  | .constructs => false
  | .places => false
  | .takes => false
  | _ => true

theorem Op.idles_plain {op : Op V α} (h : op.part.idles = true) :
    op.plain ∧ op.tidies none := by
  cases op with
  | user site =>
      cases site <;> first
        | (cases h; done)
        | exact ⟨trivial, by simp [UserSite.part], by simp [UserSite.cx]⟩
  | sched op =>
      cases op <;> first
        | (cases h; done)
        | exact ⟨trivial, trivial⟩
  | _ => exact ⟨trivial, trivial⟩

theorem calm_of_idles (parts : List Part)
    (hparts : parts.all Part.idles = true) :
    (repertoire V parts).Keeps (completionDiscipline w₀ A) (Serene w₀ none) where
  stable := calm_stable none
  op := by
    intro β op hop s _ hs
    have hall := List.all_eq_true.mp hparts
    rcases Op.idles_plain (hall _ (List.contains_iff_mem.mp hop)) with
      ⟨hplain, htidies⟩
    refine ⟨Op.plain_demands hplain s, ?_⟩
    intro input s' b _ hexec _
    exact ⟨calm_op htidies (hs.right.attended op) hexec hs, trivial⟩

theorem orderly_of_idles {parts : List Part}
    (hparts : parts.all Part.idles = true) :
    (repertoire V parts).Keeps (completionDiscipline w₀ A) (Orderly w₀) where
  stable := by
    intro e s s' hinv htolerates henv hs
    cases hs with
    | inl halarm =>
        exact Or.inl (overlooked_keeps.stable e s s' hinv htolerates henv halarm)
    | inr hcalm =>
        exact Or.inr (calm_stable none e s s' hinv htolerates henv hcalm)
  op := by
    intro β op hop s hinv hs
    cases hs with
    | inl halarm =>
        have hkept := overlooked_keeps.op op trivial s hinv halarm
        refine ⟨hkept.left, ?_⟩
        intro input s' b hadmits hexec hinv'
        have hs' := hkept.right input s' b hadmits hexec hinv'
        exact ⟨Or.inl hs'.left, hs'.right⟩
    | inr hcalm =>
        have hkept := (calm_of_idles parts hparts).op op hop s hinv hcalm
        refine ⟨hkept.left, ?_⟩
        intro input s' b hadmits hexec hinv'
        have hs' := hkept.right input s' b hadmits hexec hinv'
        exact ⟨Or.inr hs'.left, hs'.right⟩

theorem orderly_poll (turn : TurnContext) :
    Keeps (completionDiscipline w₀ A) (Orderly w₀) (fun _ => True)
      (Queue.poll turn) := by
  apply orderly_of_calm (fun _ _ => trivial)
  intro s hs
  apply wp.mono _ (fun _ hX => hX) (poll_concludes turn hs)
  intro _ s hs
  cases hs with
  | inl hcalm => exact Or.inr hcalm
  | inr hleft => exact Or.inl hleft.left

/-!
## Dispatch
-/

def Unborn (w₀ : World V) (key : Key) (s : World V × Prop) : Prop :=
  Serene w₀ none s ∧ ¬ Readied w₀ s.1 key

theorem unborn_stable (key : Key) :
    (completionDiscipline w₀ A).Stable (Unborn w₀ key) := by
  apply (calm_stable none).and
  intro e s s' _ _ henv hs
  rcases attended_env henv with ⟨henv, _⟩
  unfold Readied at hs ⊢
  rw [EnvAct.life_exec henv]
  exact hs

/-- An operation other than a poll keeps the key of a new reply fresh. -/
theorem unborn_op {op : Op V α} {input : Input V} {s s' : World V × Prop} {a : α}
    (hpolls : op.part ≠ .polls) (hcalm : Serene w₀ none s')
    (hexec : (attended w₀ A).exec op input s = some (s', a))
    (hs : Unborn w₀ key s) : Unborn w₀ key s' := by
  refine ⟨hcalm, ?_⟩
  intro hready
  cases Op.readied_exec (attended_exec hexec).left hready with
  | inl hbefore => exact hs.right hbefore
  | inr hpart => exact hpolls hpart

theorem reserve_fresh {X : World V × Prop -> Prop} (hs : Serene w₀ none s) :
    wp (completionDiscipline w₀ A) (sched .reserve) (Unborn w₀) X s := by
  apply wp.op (calm_stable none) hs
  intro s _ hs
  refine ⟨trivial, ?_⟩
  intro input s' key _ hexec _
  have htidies : (Op.sched .reserve : Op V _).tidies none := trivial
  refine ⟨calm_op htidies (fun h => h) hexec hs, ?_⟩
  have hbase := (attended_exec hexec).left
  intro hready
  have hkey : key = s.1.sched.items.next := (Op.sched_result hbase).right.symm
  cases Op.readied_exec hbase hready with
  | inl hbefore =>
      have hbound := hs.right.bounded key hbefore
      rw [hkey] at hbound
      exact Nat.lt_irrefl _ hbound
  | inr hpart => cases hpart

theorem construct_fresh (key : Key) :
    Keeps (completionDiscipline w₀ A) (Unborn w₀ key) (Unborn w₀ key)
      (callUser (.construct key)) := by
  have hstep : Keeps (completionDiscipline w₀ A) (Unborn w₀ key)
      (Unborn w₀ key) (perform (.user (.construct key))) := by
    intro s hs
    apply wp.op (unborn_stable key) hs
    intro s _ hs
    refine ⟨trivial, ?_⟩
    intro input s' step _ hexec _
    rcases attended_exec hexec with ⟨hbase, halarm⟩
    refine unborn_op (fun h => by cases h) ⟨?_, ?_⟩ hexec hs
    · rw [halarm]
      exact fun hor => hor.elim hs.left.left (fun h => h)
    · refine tidy_user ?_ ?_ hbase hs.left.right
      · intro other value hsite
        cases hsite
      · intro other hcx
        injection hcx with heq
        rw [← heq]
        exact Or.inr hs.right
  refine Keeps.bind (Keeps.iter fun _ => Keeps.bind hstep fun step => ?_)
    (fun _ => Keeps.pure ())
  cases step with
  | continues => exact Keeps.again _
  | returns value => exact Keeps.done _
  | panics => exact Keeps.throw (fun _ h => h)

theorem Tidy.place {w : World V} {future : ReplyFuture}
    (h : Tidy w₀ none w) (hfresh : ¬ Readied w₀ w key)
    (hfuture : future ≠ .completeReply none) :
    Tidy w₀ none { w with sched :=
      ((SchedOp.place key future).exec w.sched).1 } where
  grown := h.grown
  bounded := by
    intro other hready
    show other < (w.sched.items.place key _).next
    rw [Slots.next_place]
    exact h.bounded other hready
  others := by
    intro other _
    have hother := h.others other (by simp)
    have hget : forall {scheduled : ScheduledFuture},
        (w.sched.items.place key { future := future, returned := false }).get?
          other = some scheduled ->
        w.sched.items.get? other = some scheduled ∨
          other = key ∧ scheduled.future = future := by
      intro scheduled hget
      rcases Slots.get?_place_some hget with hbefore | ⟨heq, hplaced⟩
      · exact Or.inl hbefore
      · exact Or.inr ⟨heq, by rw [hplaced]⟩
    constructor
    · intro hready
      show (w.sched.items.place key _).get? other = none
      cases hplaced : (w.sched.items.place key
          { future := future, returned := false }).get? other with
      | none => rfl
      | some scheduled =>
          cases hget hplaced with
          | inl hbefore =>
              rw [hother.gone hready] at hbefore
              cases hbefore
          | inr hown =>
              rw [hown.left] at hready
              exact absurd hready hfresh
    · exact hother.free
    · intro hmended scheduled hplaced
      cases hget hplaced with
      | inl hbefore => exact hother.owing hmended scheduled hbefore
      | inr hown =>
          rw [hown.right]
          exact hfuture

theorem place_calm {X : World V × Prop -> Prop} {future : ReplyFuture}
    (hfuture : future ≠ .completeReply none) (hs : Unborn w₀ key s) :
    wp (completionDiscipline w₀ A) (do
        sched (.markReady key)
        sched (.place key future) : P V Unit)
      (fun _ => Serene w₀ none) X s := by
  have hmark : wp (completionDiscipline w₀ A) (sched (.markReady key))
      (fun _ => Unborn w₀ key) X s := by
    apply wp.op (unborn_stable key) hs
    intro s _ hs
    refine ⟨trivial, ?_⟩
    intro input s' _ _ hexec _
    have htidies : (Op.sched (.markReady key) : Op V _).tidies none := trivial
    exact unborn_op (fun h => by cases h)
      (calm_op htidies (fun h => h) hexec hs.left) hexec hs
  apply wp.seq hmark
  intro _ s hs
  apply wp.op (unborn_stable key) hs
  intro s _ hs
  refine ⟨trivial, ?_⟩
  intro input s' _ _ hexec _
  rcases attended_exec hexec with ⟨hbase, halarm⟩
  refine ⟨?_, ?_⟩
  · rw [halarm]
    exact fun hor => hor.elim hs.left.left (fun h => h)
  · rw [(Op.sched_result hbase).left]
    exact hs.left.right.place hs.right hfuture

theorem scheduleReply_serene (reply : DispatchReply) (hs : Serene w₀ none s) :
    wp (completionDiscipline w₀ A) (scheduleReply reply : P V Unit)
      (fun _ => Serene w₀ none) (Serene w₀ none) s := by
  apply wp.seq (reserve_fresh hs)
  intro key s hs
  apply wp.seq (R := fun future s =>
    Unborn w₀ key s ∧ future ≠ .completeReply none)
  · apply wp.bind
    apply wp.attempt
    apply wp.mono _ _ (construct_fresh key s hs)
    · intro _ s hs
      exact wp.pure ⟨hs, by simp⟩
    · intro s hs
      apply wp.seq (((dropReply_uses repertoire_has reply).keeps
        (calm_of_idles answerParts rfl)) s hs.left)
      intro _ s hs
      exact hs
  · intro future s hs
    exact place_calm hs.right hs.left

theorem dispatchStream_serene (reply : DispatchReply) (hs : Serene w₀ none s) :
    wp (completionDiscipline w₀ A) (StreamKind.dispatch reply : P V Unit)
      (fun _ => Serene w₀ none) (Serene w₀ none) s := by
  apply wp.seq (((completeReply_uses repertoire_has reply none).keeps
    (calm_of_idles payingParts rfl)) s hs)
  intro _ s hs
  apply wp.seq (reserve_fresh hs)
  intro key s hs
  have hbuild : wp (completionDiscipline w₀ A) (do
      callUser (.construct key)
      return ReplyFuture.finishStream true : P V ReplyFuture)
      (fun future s => Unborn w₀ key s ∧ future ≠ .completeReply none)
      (Serene w₀ none) s := by
    apply wp.seq (wp.mono (fun _ _ hs => hs) (fun _ hs => hs.left)
      (construct_fresh key s hs))
    intro _ s hs
    exact wp.pure ⟨hs, by simp⟩
  apply wp.seq hbuild
  intro future s hs
  exact place_calm hs.right hs.left

theorem completion_dispatching :
    Dispatching (V := V) (completionDiscipline w₀ A) (Orderly w₀) (Orderly w₀)
      (Orderly w₀) where
  falls := fun _ hs => hs
  settles := fun _ hs => hs
  decides := orderly_of_idles rfl
  single := by
    intro reply
    apply orderly_of_calm (fun _ halarm => Or.inl halarm)
    intro s hs
    exact wp.mono (fun _ _ hs => Or.inr hs) (fun _ hs => Or.inr hs)
      (scheduleReply_serene reply hs)
  stream := by
    intro reply
    apply orderly_of_calm (fun _ halarm => Or.inl halarm)
    intro s hs
    exact wp.mono (fun _ _ hs => Or.inr hs) (fun _ hs => Or.inr hs)
      (dispatchStream_serene reply hs)

/-!
## The whole life
-/

theorem completion_turning :
    Turning (V := V) A (completionDiscipline w₀ A) (Orderly w₀)
      (fun _ => True) := by
  apply Turning.ofDispatch (fun _ _ => trivial) (orderly_of_idles rfl)
  · intro s _
    apply wp.op Discipline.Stable.true trivial
    intro s _ _
    exact ⟨trivial, fun _ _ _ _ _ _ => trivial⟩
  · exact orderly_poll
  · intro envelope s hs
    exact wp.mono (fun _ _ hs => hs) (fun _ _ => trivial)
      (completion_dispatching.dispatch envelope hs)

theorem completion_loose :
    (repertoire V looseParts).Keeps (completionDiscipline w₀ A)
      (fun _ => True) where
  stable := Discipline.Stable.true
  op := by
    intro β op hop s _ _
    refine ⟨Op.plain_demands ?_ s, fun _ _ _ _ _ _ => ⟨trivial, trivial⟩⟩
    cases op with
    | user site => cases site <;> trivial
    | sched op => cases op <;> trivial
    | _ => trivial

theorem completion_spine :
    Spine A (completionDiscipline (V := V) w₀ A) (Orderly w₀) (Orderly w₀)
      (Orderly w₀) (Orderly w₀) (fun _ => True) (fun _ => Orderly w₀) :=
  spine_of_steady completion_turning (orderly_of_idles rfl) completion_loose

theorem overlooks_sparing (w₀ : World V) :
    (machine V A).Sparing (Overlooks w₀) := by
  intro β op input p s hcancel
  cases op with
  | differs expected => cases hcancel
  | _ => exact fun h => h

end Loac

import Loac.Interleave.Prog

/-!
# A logic for interleaved programs

A discipline fixes what is claimed about a machine.  It names an invariant of
the state, the steps that are considered at all, and what each operation
demands of the state in which it runs.  Weakest preconditions over a
discipline are computed by recursion on the program.  Between two operations
any number of environment steps may happen, so a precondition of an operation
is asked of every state the environment can lead to.
-/

namespace Interleave

variable {Op : Type -> Type 1} {σ ι ε α β γ ρ : Type}

structure Discipline (M : Machine Op σ ι ε ρ) where
  inv : σ -> Prop
  admits : {β : Type} -> Op β -> ι -> σ -> Prop
  tolerates : ε -> σ -> Prop
  demands : {β : Type} -> Op β -> σ -> Prop

namespace Discipline

variable {M : Machine Op σ ι ε ρ}

def Moves (D : Discipline M) (s s' : σ) : Prop :=
  D.inv s ∧ exists e, D.tolerates e s ∧ M.env e s = some s'

/-- What the environment may do between two operations. -/
def Rely (D : Discipline M) : σ -> σ -> Prop :=
  Relation.ReflTransGen D.Moves

def Permits (D : Discipline M) (c : Config Op σ ρ) : Event ι ε -> Prop
  | .env e => D.tolerates e c.state
  | .actor input =>
      match c.prog with
      | .act op _ => D.admits op input c.state
      | _ => True

theorem permits_all {D : Discipline M}
    (hadmits : forall {β : Type} (op : Op β) input s, D.admits op input s)
    (htolerates : forall e s, D.tolerates e s) (c : Config Op σ ρ)
    (event : Event ι ε) : D.Permits c event := by
  cases event with
  | env e => exact htolerates e c.state
  | actor input =>
      unfold Permits
      dsimp only
      split
      · exact hadmits _ input c.state
      · trivial

/-- The invariant survives every considered step. -/
structure Lawful (D : Discipline M) : Prop where
  actor : forall {β : Type} (op : Op β) (input : ι) (s s' : σ) (b : β),
    D.inv s -> D.demands op s -> D.admits op input s ->
      M.exec op input s = some (s', b) -> D.inv s'
  env : forall (e : ε) (s s' : σ),
    D.inv s -> D.tolerates e s -> M.env e s = some s' -> D.inv s'

/-- A property of states that the environment cannot destroy. -/
def Stable (D : Discipline M) (P : σ -> Prop) : Prop :=
  forall e s s', D.inv s -> D.tolerates e s -> M.env e s = some s' -> P s -> P s'

theorem Rely.refl {D : Discipline M} {s : σ} : D.Rely s s :=
  Relation.ReflTransGen.refl

theorem Rely.keeps {D : Discipline M} {P : σ -> Prop} {s s' : σ}
    (hrely : D.Rely s s') (hstable : D.Stable P) (h : P s) : P s' := by
  induction hrely with
  | refl => exact h
  | tail _ hmove ih =>
      rcases hmove with ⟨hinv, e, htolerates, henv⟩
      exact hstable e _ _ hinv htolerates henv ih

theorem Stable.and {D : Discipline M} {P P' : σ -> Prop}
    (h : D.Stable P) (h' : D.Stable P') :
    D.Stable (fun s => P s ∧ P' s) := by
  intro e s s' hinv htolerates henv hs
  exact ⟨h e s s' hinv htolerates henv hs.left,
    h' e s s' hinv htolerates henv hs.right⟩

theorem Stable.true {D : Discipline M} : D.Stable (fun _ => True) := by
  intro _ _ _ _ _ _ _
  trivial

end Discipline

/-!
## Weakest preconditions

The first postcondition is for programs that return, the second one for
programs that unwind.
-/

def wp {M : Machine Op σ ι ε ρ} (D : Discipline M) {α : Type} :
    Prog Op α -> (α -> σ -> Prop) -> (σ -> Prop) -> σ -> Prop
  | .pure a, Q, _, s => Q a s
  | .throw, _, X, s => X s
  | .act op next, Q, X, s =>
      forall s', D.Rely s s' -> D.inv s' ->
        D.demands op s' ∧
          forall input s'' b, D.admits op input s' ->
            M.exec op input s' = some (s'', b) -> D.inv s'' ->
              wp D (next b) Q X s''
  | .loop (β := β) (γ := γ) body start next, Q, X, s =>
      exists I : β -> σ -> Prop, I start s ∧ forall b s, I b s ->
        wp D (body b)
          (fun (r : β ⊕ γ) s =>
            match r with
            | .inl b' => I b' s
            | .inr c => wp D (next c) Q X s)
          X s

def Splits (I : β -> σ -> Prop) (Q : γ -> σ -> Prop) : β ⊕ γ -> σ -> Prop
  | .inl b => I b
  | .inr c => Q c

namespace wp

variable {M : Machine Op σ ι ε ρ} {D : Discipline M}

theorem mono {p : Prog Op α} {Q Q' : α -> σ -> Prop} {X X' : σ -> Prop} {s : σ}
    (hQ : forall a s, Q a s -> Q' a s) (hX : forall s, X s -> X' s)
    (h : wp D p Q X s) : wp D p Q' X' s := by
  induction p generalizing s with
  | pure a => exact hQ _ _ h
  | throw => exact hX _ h
  | act op next ih =>
      intro s' hrely hinv
      have hop := h s' hrely hinv
      constructor
      · exact hop.left
      · intro input s'' b hadmits hexec hinv'
        exact ih b hQ (hop.right input s'' b hadmits hexec hinv')
  | loop body start next ihBody ihNext =>
      rcases h with ⟨I, hI, hbody⟩
      refine ⟨I, hI, fun b s' hs' => ihBody b ?_ (hbody b s' hs')⟩
      intro r s'' hr
      cases r with
      | inl b' => exact hr
      | inr c => exact ihNext c hQ hr

theorem pure {a : α} {Q : α -> σ -> Prop} {X : σ -> Prop} {s : σ}
    (h : Q a s) : wp D (Pure.pure a) Q X s := h

theorem again {b : β} {Q : β ⊕ γ -> σ -> Prop} {X : σ -> Prop} {s : σ}
    (h : Q (.inl b) s) : wp D (Prog.again b) Q X s := h

theorem done {c : γ} {Q : β ⊕ γ -> σ -> Prop} {X : σ -> Prop} {s : σ}
    (h : Q (.inr c) s) : wp D (Prog.done c) Q X s := h

theorem throw {Q : α -> σ -> Prop} {X : σ -> Prop} {s : σ}
    (h : X s) : wp D (.throw : Prog Op α) Q X s := h

theorem bind {p : Prog Op α} {f : α -> Prog Op β}
    {Q : β -> σ -> Prop} {X : σ -> Prop} {s : σ}
    (h : wp D p (fun a s => wp D (f a) Q X s) X s) :
    wp D (p >>= f) Q X s := by
  show wp D (p.bind f) Q X s
  induction p generalizing s with
  | pure a => exact h
  | throw => exact h
  | act op next ih =>
      intro s' hrely hinv
      have hop := h s' hrely hinv
      constructor
      · exact hop.left
      · intro input s'' b hadmits hexec hinv'
        exact ih b (hop.right input s'' b hadmits hexec hinv')
  | loop body start next _ ihNext =>
      rcases h with ⟨I, hI, hbody⟩
      refine ⟨I, hI, fun b s' hs' => mono ?_ (fun _ hX => hX) (hbody b s' hs')⟩
      intro r s'' hr
      cases r with
      | inl b' => exact hr
      | inr c => exact ihNext c hr

/-- Sequencing through an intermediate assertion. -/
theorem seq {p : Prog Op α} {f : α -> Prog Op β} {R : α -> σ -> Prop}
    {Q : β -> σ -> Prop} {X : σ -> Prop} {s : σ}
    (hp : wp D p R X s) (hf : forall a s, R a s -> wp D (f a) Q X s) :
    wp D (p >>= f) Q X s :=
  bind (mono hf (fun _ hX => hX) hp)

theorem perform {op : Op β} {Q : β -> σ -> Prop} {X : σ -> Prop} {s : σ}
    (h : forall s', D.Rely s s' -> D.inv s' ->
      D.demands op s' ∧
        forall input s'' b, D.admits op input s' ->
          M.exec op input s' = some (s'', b) -> D.inv s'' -> Q b s'') :
    wp D (Prog.perform op) Q X s := h

theorem iter {start : β} {body : β -> Prog Op (β ⊕ γ)}
    {Q : γ -> σ -> Prop} {X : σ -> Prop} {s : σ} (I : β -> σ -> Prop)
    (hstart : I start s)
    (hbody : forall b s, I b s ->
      wp D (body b)
        (fun r s =>
          match r with
          | .inl b' => I b' s
          | .inr c => Q c s)
        X s) :
    wp D (Prog.iter start body) Q X s :=
  ⟨I, hstart, hbody⟩

/-- A loop whose rounds keep an assertion until one of them leaves. -/
theorem rounds {start : β} {body : β -> Prog Op (β ⊕ γ)}
    {Q : γ -> σ -> Prop} {X : σ -> Prop} {s : σ} (I : β -> σ -> Prop)
    (hstart : I start s)
    (hbody : forall b s, I b s -> wp D (body b) (Splits I Q) X s) :
    wp D (Prog.iter start body) Q X s := by
  apply iter I hstart
  intro b s hs
  apply mono _ (fun _ hX => hX) (hbody b s hs)
  intro r s hs
  cases r with
  | inl _ => exact hs
  | inr _ => exact hs

theorem attempt {p : Prog Op α} {Q : Option α -> σ -> Prop} {X : σ -> Prop}
    {s : σ} (h : wp D p (fun a s => Q (some a) s) (Q none) s) :
    wp D p.attempt Q X s := by
  induction p generalizing s with
  | pure a => exact h
  | throw => exact h
  | act op next ih =>
      intro s' hrely hinv
      have hop := h s' hrely hinv
      constructor
      · exact hop.left
      · intro input s'' b hadmits hexec hinv'
        exact ih b (hop.right input s'' b hadmits hexec hinv')
  | loop body start next ihBody ihNext =>
      rcases h with ⟨I, hI, hbody⟩
      rw [Prog.attempt]
      refine ⟨I, hI, fun b s' hs' => ?_⟩
      apply bind
      apply ihBody b
      apply mono _ _ (hbody b s' hs')
      · intro r s'' hr
        cases r with
        | inl b' => exact hr
        | inr c => exact ihNext c hr
      · intro s'' hX
        exact hX

theorem onExit {p : Prog Op α} {cleanup : Prog Op Unit}
    {Q : α -> σ -> Prop} {X : σ -> Prop} {s : σ}
    (h : wp D p
      (fun a s => wp D cleanup (fun _ s => Q a s) X s)
      (fun s => wp D cleanup (fun _ s => X s) X s) s) :
    wp D (Prog.onExit p cleanup) Q X s := by
  apply bind
  apply attempt
  apply mono _ _ h
  · intro a s' hs'
    exact bind hs'
  · intro s' hs'
    exact bind hs'

theorem onlyIf {condition : Bool} {p : Prog Op Unit} {Q : Unit -> σ -> Prop}
    {X : σ -> Prop} {s : σ}
    (hp : condition = true -> wp D p Q X s) (hskip : condition = false -> Q () s) :
    wp D (Prog.onlyIf condition p) Q X s := by
  cases condition with
  | false => exact hskip rfl
  | true => exact hp rfl

theorem forEach {items : List β} {f : β -> Prog Op Unit}
    {P X : σ -> Prop} {s : σ}
    (hf : forall b, b ∈ items -> forall s, P s -> wp D (f b) (fun _ => P) X s)
    (h : P s) : wp D (Prog.forEach items f) (fun _ => P) X s := by
  induction items generalizing s with
  | nil => exact h
  | cons item rest ih =>
      apply seq (hf item (List.mem_cons_self ..) s h)
      intro _ s' hs'
      exact ih (fun b hb => hf b (List.mem_cons_of_mem _ hb)) hs'

/-- An operation in a state that a stable property describes. -/
theorem op {op : Op β} {P : σ -> Prop} {Q : β -> σ -> Prop} {X : σ -> Prop}
    {s : σ} (hstable : D.Stable P) (h : P s)
    (hop : forall s, D.inv s -> P s ->
      D.demands op s ∧
        forall input s' b, D.admits op input s ->
          M.exec op input s = some (s', b) -> D.inv s' -> Q b s') :
    wp D (Prog.perform op) Q X s := by
  apply perform
  intro s' hrely hinv
  exact hop s' hinv (hrely.keeps hstable h)

end wp

/-!
## Kept properties

Most code is only asked to keep one property when it returns and another one
when it unwinds.
-/

def Keeps {M : Machine Op σ ι ε ρ} (D : Discipline M) (P X : σ -> Prop)
    (p : Prog Op α) : Prop :=
  forall s, P s -> wp D p (fun _ => P) X s

namespace Keeps

variable {M : Machine Op σ ι ε ρ} {D : Discipline M} {P X : σ -> Prop}

theorem pure (a : α) : Keeps D P X (Pure.pure a) :=
  fun _ h => h

theorem again (b : β) : Keeps D P X (Prog.again b : Prog Op (β ⊕ γ)) :=
  fun _ h => h

theorem done (c : γ) : Keeps D P X (Prog.done c : Prog Op (β ⊕ γ)) :=
  fun _ h => h

theorem throw (h : forall s, P s -> X s) :
    Keeps D P X (.throw : Prog Op α) :=
  h

theorem bind {p : Prog Op α} {f : α -> Prog Op β} (hp : Keeps D P X p)
    (hf : forall a, Keeps D P X (f a)) : Keeps D P X (p >>= f) := by
  intro s h
  exact wp.seq (hp s h) hf

theorem iter {start : β} {body : β -> Prog Op (β ⊕ γ)}
    (hbody : forall b, Keeps D P X (body b)) :
    Keeps D P X (Prog.iter start body) := by
  intro s h
  apply wp.iter (fun _ => P) h
  intro b s' hs'
  apply wp.mono _ _ (hbody b s' hs')
  · intro r s'' hs''
    cases r with
    | inl _ => exact hs''
    | inr _ => exact hs''
  · intro s'' hX
    exact hX

theorem ite {condition : Prop} [Decidable condition] {p q : Prog Op α}
    (hp : Keeps D P X p) (hq : Keeps D P X q) :
    Keeps D P X (if condition then p else q) := by
  by_cases h : condition
  · rw [if_pos h]
    exact hp
  · rw [if_neg h]
    exact hq

theorem onlyIf {condition : Bool} {p : Prog Op Unit} (hp : Keeps D P X p) :
    Keeps D P X (Prog.onlyIf condition p) := by
  intro s h
  exact wp.onlyIf (fun _ => hp s h) (fun _ => h)

theorem forEach {items : List β} {f : β -> Prog Op Unit}
    (hf : forall b, Keeps D P X (f b)) : Keeps D P X (Prog.forEach items f) := by
  intro s h
  exact wp.forEach (fun b _ => hf b) h

theorem onExit {p : Prog Op α} {cleanup : Prog Op Unit} (hp : Keeps D P X p)
    (hcleanup : Keeps D P X cleanup) (hunwound : Keeps D X X cleanup) :
    Keeps D P X (Prog.onExit p cleanup) := by
  intro s h
  apply wp.onExit
  exact wp.mono (fun _ => hcleanup) hunwound (hp s h)

theorem conseq {X' : σ -> Prop} {p : Prog Op α} (hX : forall s, X s -> X' s)
    (hp : Keeps D P X p) : Keeps D P X' p := by
  intro s h
  exact wp.mono (fun _ _ h => h) hX (hp s h)

end Keeps

/-!
## Soundness

The precondition of what is left of the program follows a run, up to what the
environment did since the last step of the program.
-/

/-- The invariant holds and what is left of the program is safe. -/
def Safe {M : Machine Op σ ι ε ρ} (D : Discipline M) (Q : ρ -> σ -> Prop)
    (X : σ -> Prop) (c : Config Op σ ρ) : Prop :=
  D.inv c.state ∧ exists s, D.Rely s c.state ∧ wp D c.prog Q X s

namespace Safe

variable {M : Machine Op σ ι ε ρ} {D : Discipline M} {Q : ρ -> σ -> Prop}
  {X : σ -> Prop} {c c' : Config Op σ ρ}

/-- An operation that is cancelled leaves a safe program behind. -/
def Cancels (D : Discipline M) (Q : ρ -> σ -> Prop) (X : σ -> Prop) : Prop :=
  forall {β : Type} (op : Op β) (input : ι) (p : Prog Op ρ) (s : σ),
    M.cancel op input = some p -> D.inv s -> D.demands op s ->
      D.admits op input s -> wp D p Q X s

theorem env_step (hlawful : D.Lawful) {e : ε} (htolerates : D.tolerates e c.state)
    (hstep : M.step c (.env e) = some c') (h : Safe D Q X c) :
    Safe D Q X c' := by
  rcases h with ⟨hinv, s, hrely, hwp⟩
  rcases Option.map_eq_some_iff.mp hstep with ⟨s', henv, hc'⟩
  subst c'
  constructor
  · exact hlawful.env e c.state s' hinv htolerates henv
  · exact ⟨s, hrely.tail ⟨hinv, e, htolerates, henv⟩, hwp⟩

/-- A step of a program at whose operation a cancellation is safe. -/
theorem actor_step_of (hlawful : D.Lawful) {input : ι}
    (hcancel : forall {β : Type} (op : Op β) (next : β -> Prog Op ρ)
      (p : Prog Op ρ), c.prog = .act op next -> M.cancel op input = some p ->
        D.inv c.state -> D.demands op c.state -> D.admits op input c.state ->
          wp D p Q X c.state)
    (hpermits : D.Permits c (.actor input))
    (hstep : M.step c (.actor input) = some c') (h : Safe D Q X c) :
    Safe D Q X c' := by
  rcases c with ⟨state, prog⟩
  rcases h with ⟨hinv, s, hrely, hwp⟩
  change M.stepActor input _ = _ at hstep
  cases prog with
  | pure a => cases hstep
  | throw => cases hstep
  | act op next =>
      have hop := hwp state hrely hinv
      rw [Machine.stepActor] at hstep
      cases hcancelled : M.cancel op input with
      | some p =>
          rw [hcancelled] at hstep
          cases hstep
          have hp := hcancel op next p rfl hcancelled hinv hop.left hpermits
          exact ⟨hinv, state, .refl, hp⟩
      | none =>
          rw [hcancelled] at hstep
          rcases Option.map_eq_some_iff.mp hstep with ⟨⟨s', b⟩, hexec, hc'⟩
          subst c'
          have hinv' := hlawful.actor op input state s' b hinv hop.left
            hpermits hexec
          have hnext := hop.right input s' b hpermits hexec hinv'
          exact ⟨hinv', s', .refl, hnext⟩
  | loop body start next =>
      cases hstep
      rcases hwp with ⟨I, hI, hbody⟩
      refine ⟨hinv, s, hrely, wp.bind ?_⟩
      apply wp.mono _ _ (hbody start s hI)
      · intro r s' hr
        cases r with
        | inl b => exact ⟨I, hr, hbody⟩
        | inr c => exact hr
      · intro s' hX
        exact hX

theorem actor_step (hlawful : D.Lawful) (hcancels : Cancels D Q X) {input : ι}
    (hpermits : D.Permits c (.actor input))
    (hstep : M.step c (.actor input) = some c') (h : Safe D Q X c) :
    Safe D Q X c' :=
  actor_step_of hlawful (fun op _ p _ => hcancels op input p c.state)
    hpermits hstep h

theorem run (hlawful : D.Lawful) (hcancels : Cancels D Q X)
    {start : Config Op σ ρ} (hstart : Safe D Q X start)
    (hreach : Machine.Reaches M D.Permits start c) : Safe D Q X c := by
  induction hreach with
  | refl => exact hstart
  | step event _ hpermits hstep ih =>
      cases event with
      | env e => exact env_step hlawful hpermits hstep ih
      | actor input => exact actor_step hlawful hcancels hpermits hstep ih

theorem inv (h : Safe D Q X c) : D.inv c.state :=
  h.left

/-- What an operation demands holds where the operation is about to run. -/
theorem demands {op : Op β} {next : β -> Prog Op ρ} {s : σ}
    (h : Safe D Q X ⟨s, .act op next⟩) : D.demands op s := by
  rcases h with ⟨hinv, s', hrely, hwp⟩
  exact (hwp s hrely hinv).left

/-- A stable postcondition holds where the program has returned. -/
theorem returned {a : ρ} {s : σ} (hstable : D.Stable (Q a))
    (h : Safe D Q X ⟨s, .pure a⟩) : Q a s := by
  rcases h with ⟨_, s', hrely, hwp⟩
  exact hrely.keeps hstable hwp

theorem unwound {s : σ} (hstable : D.Stable X)
    (h : Safe D Q X ⟨s, .throw⟩) : X s := by
  rcases h with ⟨_, s', hrely, hwp⟩
  exact hrely.keeps hstable hwp

end Safe

/-- The invariant of a run whose operations meet their demands anyway. -/
theorem Discipline.Lawful.run {M : Machine Op σ ι ε ρ} {D : Discipline M}
    {start c : Config Op σ ρ} (hlawful : D.Lawful) (hstart : D.inv start.state)
    (hdemands : forall {β : Type} (op : Op β) next s,
      Machine.Reaches M D.Permits start ⟨s, .act op next⟩ -> D.demands op s)
    (hreach : Machine.Reaches M D.Permits start c) : D.inv c.state := by
  induction hreach with
  | refl => exact hstart
  | @step middle c event hfirst hpermits hstep ih =>
      cases event with
      | env e =>
          rcases Option.map_eq_some_iff.mp hstep with ⟨s', henv, hc'⟩
          subst hc'
          exact hlawful.env e middle.state s' ih hpermits henv
      | actor input =>
          rcases middle with ⟨state, prog⟩
          change M.stepActor input _ = _ at hstep
          cases prog with
          | pure a => cases hstep
          | throw => cases hstep
          | loop body start next =>
              cases hstep
              exact ih
          | act op next =>
              rw [Machine.stepActor] at hstep
              cases hcancelled : M.cancel op input with
              | some p =>
                  rw [hcancelled] at hstep
                  cases hstep
                  exact ih
              | none =>
                  rw [hcancelled] at hstep
                  rcases Option.map_eq_some_iff.mp hstep with
                    ⟨⟨s', b⟩, hexec, hc'⟩
                  subst hc'
                  exact hlawful.actor op input state s' b ih
                    (hdemands op next state hfirst) hpermits hexec

end Interleave

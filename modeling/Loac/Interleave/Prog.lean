import Mathlib.Logic.Relation

/-!
# Interleaved programs

A program is a tree of atomic operations on a shared state.  Between two
operations an environment may change the state, so a program is run one
operation at a time.  Loops are a constructor of their own: the tree stays
finite while the computation it describes need not end.

The module knows nothing about the operations.  They are a family indexed by
the type of their result, and a machine gives them their meaning.
-/

namespace Interleave

/--
Sequential code over a family of operations.  `throw` unwinds, and
`loop` repeats its body until the body returns on the right.
-/
inductive Prog (Op : Type -> Type 1) : Type -> Type 1 where
  | pure {α : Type} (a : α) : Prog Op α
  | throw {α : Type} : Prog Op α
  | act {α β : Type} (op : Op β) (next : β -> Prog Op α) : Prog Op α
  | loop {α β γ : Type} (body : β -> Prog Op (β ⊕ γ)) (start : β)
      (next : γ -> Prog Op α) : Prog Op α

namespace Prog

variable {Op : Type -> Type 1} {α β γ : Type}

def bind {α β : Type} : Prog Op α -> (α -> Prog Op β) -> Prog Op β
  | .pure a, f => f a
  | .throw, _ => .throw
  | .act op next, f => .act op (fun b => (next b).bind f)
  | .loop body start next, f => .loop body start (fun c => (next c).bind f)

instance : Monad (Prog Op) where
  pure := Prog.pure
  bind := Prog.bind

def perform (op : Op β) : Prog Op β :=
  .act op .pure

/-- Repeats the body from a starting value until it returns with `done`. -/
def iter (start : β) (body : β -> Prog Op (β ⊕ γ)) : Prog Op γ :=
  .loop body start .pure

/-- Ends one round of a loop and begins the next one. -/
def again (b : β) : Prog Op (β ⊕ γ) :=
  .pure (.inl b)

def done (c : γ) : Prog Op (β ⊕ γ) :=
  .pure (.inr c)

/-- Catches an unwinding program: the result is `none` when it unwound. -/
def attempt {α : Type} : Prog Op α -> Prog Op (Option α)
  | .pure a => .pure (some a)
  | .throw => .pure none
  | .act op next => .act op (fun b => (next b).attempt)
  | .loop body start next =>
      .loop
        (fun b => (body b).attempt.bind fun r =>
          match r with
          | none => .pure (.inr none)
          | some (.inl b') => .pure (.inl b')
          | some (.inr c) => .pure (.inr (some c)))
        start
        (fun r =>
          match r with
          | none => .pure none
          | some c => (next c).attempt)

/-- Runs the cleanup when the program is left, whether it returns or unwinds. -/
def onExit (p : Prog Op α) (cleanup : Prog Op Unit) : Prog Op α := do
  match ← p.attempt with
  | some a =>
      cleanup
      return a
  | none =>
      cleanup
      .throw

def onlyIf (condition : Bool) (p : Prog Op Unit) : Prog Op Unit :=
  if condition then p else .pure ()

def forEach (items : List β) (f : β -> Prog Op Unit) : Prog Op Unit :=
  match items with
  | [] => .pure ()
  | item :: rest => do
      f item
      forEach rest f

end Prog

/-!
## Machines

A machine says what an operation does to the state, given an input that
resolves its choices, and what the environment may do.  An operation may also
be cancelled: the program is then abandoned and another one takes its place.
-/

structure Machine (Op : Type -> Type 1) (σ ι ε α : Type) where
  exec : {β : Type} -> Op β -> ι -> σ -> Option (σ × β)
  env : ε -> σ -> Option σ
  cancel : {β : Type} -> Op β -> ι -> Option (Prog Op α)

structure Config (Op : Type -> Type 1) (σ α : Type) where
  state : σ
  prog : Prog Op α

inductive Event (ι ε : Type) where
  | actor (input : ι)
  | env (e : ε)

namespace Machine

variable {Op : Type -> Type 1} {σ ι ε α : Type}

def stepActor (M : Machine Op σ ι ε α) (input : ι) :
    Config Op σ α -> Option (Config Op σ α)
  | ⟨_, .pure _⟩ => none
  | ⟨_, .throw⟩ => none
  | ⟨s, .act op next⟩ =>
      match M.cancel op input with
      | some p => some ⟨s, p⟩
      | none => (M.exec op input s).map (fun r => ⟨r.1, next r.2⟩)
  | ⟨s, .loop body start next⟩ =>
      some ⟨s, (body start).bind (fun r =>
        match r with
        | .inl b => .loop body b next
        | .inr c => next c)⟩

def step (M : Machine Op σ ι ε α) (c : Config Op σ α) :
    Event ι ε -> Option (Config Op σ α)
  | .actor input => M.stepActor input c
  | .env e => (M.env e c.state).map (fun s => { c with state := s })

/--
The configurations reached from a starting one by steps that are all permitted.
-/
inductive Reaches (M : Machine Op σ ι ε α)
    (permitted : Config Op σ α -> Event ι ε -> Prop)
    (start : Config Op σ α) : Config Op σ α -> Prop where
  | refl : Reaches M permitted start start
  | step {c c' : Config Op σ α} (event : Event ι ε) :
      Reaches M permitted start c ->
      permitted c event ->
      M.step c event = some c' ->
      Reaches M permitted start c'

def Anything (_ : Config Op σ α) (_ : Event ι ε) : Prop :=
  True

variable {M : Machine Op σ ι ε α}
  {permitted : Config Op σ α -> Event ι ε -> Prop} {start c c' : Config Op σ α}

theorem Reaches.weaken {permitted' : Config Op σ α -> Event ι ε -> Prop}
    (h : forall c event, permitted c event -> permitted' c event)
    (hreach : Reaches M permitted start c) :
    Reaches M permitted' start c := by
  induction hreach with
  | refl => exact .refl
  | step event _ hpermitted hstep ih =>
      exact .step event ih (h _ _ hpermitted) hstep

theorem Reaches.trans {middle : Config Op σ α}
    (hfirst : Reaches M permitted start middle)
    (hsecond : Reaches M permitted middle c) :
    Reaches M permitted start c := by
  induction hsecond with
  | refl => exact hfirst
  | step event _ hpermitted hstep ih =>
      exact .step event ih hpermitted hstep

inductive Effect (M : Machine Op σ ι ε α) (c : Config Op σ α) (s : σ) : Prop where
  | nothing : s = c.state -> Effect M c s
  | actor {β : Type} (op : Op β) (next : β -> Prog Op α) (input : ι) (b : β) :
      c.prog = .act op next -> M.exec op input c.state = some (s, b) ->
      Effect M c s
  | env (e : ε) : M.env e c.state = some s -> Effect M c s

/-- How a program takes a step. -/
inductive Took (M : Machine Op σ ι ε α) (input : ι) (c c' : Config Op σ α) :
    Prop where
  | turned : c'.state = c.state -> Took M input c c'
  | cancelled {β : Type} (op : Op β) (next : β -> Prog Op α) :
      c.prog = .act op next -> M.cancel op input = some c'.prog ->
      c'.state = c.state -> Took M input c c'
  | performed {β : Type} (op : Op β) (next : β -> Prog Op α) (b : β) :
      c.prog = .act op next ->
      M.exec op input c.state = some (c'.state, b) -> c'.prog = next b ->
      Took M input c c'

theorem took_of_step {input : ι} (hstep : M.stepActor input c = some c') :
    Took M input c c' := by
  rcases c with ⟨s, prog⟩
  cases prog with
  | pure a => cases hstep
  | throw => cases hstep
  | loop body start next =>
      cases hstep
      exact .turned rfl
  | act op next =>
      rw [stepActor] at hstep
      cases hcancel : M.cancel op input with
      | some p =>
          rw [hcancel] at hstep
          cases hstep
          exact .cancelled op next rfl hcancel rfl
      | none =>
          rw [hcancel] at hstep
          rcases Option.map_eq_some_iff.mp hstep with ⟨⟨s', b⟩, hexec, hc'⟩
          subst hc'
          exact .performed op next b rfl hexec rfl

theorem effect_of_step {event : Event ι ε} (hstep : M.step c event = some c') :
    Effect M c c'.state := by
  cases event with
  | env e =>
      rcases Option.map_eq_some_iff.mp hstep with ⟨s, henv, hc'⟩
      subst hc'
      exact .env e henv
  | actor input =>
      cases took_of_step hstep with
      | turned hsame => exact .nothing hsame
      | cancelled op next _ _ hsame => exact .nothing hsame
      | performed op next b hprog hexec _ =>
          exact .actor op next input b hprog hexec

/-- A relation between states that every effect keeps relates a run's ends. -/
theorem Reaches.relates {R : σ -> σ -> Prop} (hrefl : forall s, R s s)
    (htrans : forall s s' s'', R s s' -> R s' s'' -> R s s'')
    (heffect : forall (c : Config Op σ α) s, Effect M c s -> R c.state s)
    (hreach : Reaches M permitted start c) : R start.state c.state := by
  induction hreach with
  | refl => exact hrefl _
  | step event _ _ hstep ih =>
      exact htrans _ _ _ ih (heffect _ _ (effect_of_step hstep))

/-!
## Scripts

A script drives a machine: the program runs on a default input as long as it
can, and the script supplies the events at which a choice is made.
-/

/-- Runs the program on one input while it can, for at most the given fuel. -/
def settle (M : Machine Op σ ι ε α) (input : ι) :
    Nat -> Config Op σ α -> Config Op σ α
  | 0, c => c
  | fuel + 1, c =>
      match M.stepActor input c with
      | none => c
      | some c' => settle M input fuel c'

/-- Runs a program on inputs that are chosen for where it is. -/
def steer (M : Machine Op σ ι ε α) (choose : Config Op σ α -> ι) :
    Nat -> Config Op σ α -> Config Op σ α
  | 0, c => c
  | fuel + 1, c =>
      match M.stepActor (choose c) c with
      | none => c
      | some c' => steer M choose fuel c'

def play (M : Machine Op σ ι ε α) (input : ι) (fuel : Nat) :
    List (Event ι ε) -> Config Op σ α -> Option (Config Op σ α)
  | [], c => some c
  | event :: rest, c =>
      match M.step (M.settle input fuel c) event with
      | none => none
      | some c' => play M input fuel rest c'

def stage (M : Machine Op σ ι ε α) (input : ι) (fuel : Nat)
    (script : List (Event ι ε)) (rest : Nat) (c : Config Op σ α) :
    Config Op σ α :=
  M.settle input rest ((M.play input fuel script c).getD c)

theorem settle_reaches {input : ι} (hinput : forall c, permitted c (.actor input))
    (fuel : Nat) (c : Config Op σ α) :
    Reaches M permitted c (M.settle input fuel c) := by
  induction fuel generalizing c with
  | zero => exact .refl
  | succ fuel ih =>
      unfold settle
      cases hstep : M.stepActor input c with
      | none => exact .refl
      | some c' =>
          have hfirst : Reaches M permitted c c' :=
            .step (.actor input) .refl (hinput c) hstep
          exact hfirst.trans (ih c')

theorem steer_reaches_of {choose : Config Op σ α -> ι} {fuel : Nat}
    {c : Config Op σ α}
    (h : forall k, k < fuel -> permitted (M.steer choose k c)
      (.actor (choose (M.steer choose k c)))) :
    Reaches M permitted c (M.steer choose fuel c) := by
  induction fuel generalizing c with
  | zero => exact .refl
  | succ fuel ih =>
      unfold steer
      cases hstep : M.stepActor (choose c) c with
      | none => exact .refl
      | some c' =>
          have hfirst : Reaches M permitted c c' :=
            .step (.actor (choose c)) .refl (h 0 (Nat.succ_pos fuel)) hstep
          refine hfirst.trans (ih fun k hk => ?_)
          have hlater := h (k + 1) (Nat.succ_lt_succ hk)
          rw [steer, hstep] at hlater
          exact hlater

theorem play_reaches {input : ι} (hinput : forall c, permitted c (.actor input))
    {fuel : Nat} {script : List (Event ι ε)}
    (hscript : forall event, event ∈ script -> forall c, permitted c event)
    (hplay : M.play input fuel script c = some c') :
    Reaches M permitted c c' := by
  induction script generalizing c with
  | nil =>
      cases hplay
      exact .refl
  | cons event rest ih =>
      unfold play at hplay
      cases hstep : M.step (M.settle input fuel c) event with
      | none =>
          rw [hstep] at hplay
          cases hplay
      | some next =>
          rw [hstep] at hplay
          have hevent : Reaches M permitted (M.settle input fuel c) next :=
            .step event .refl (hscript event (List.mem_cons_self ..) _) hstep
          have hrest := ih (fun event hmem =>
            hscript event (List.mem_cons_of_mem _ hmem)) hplay
          exact ((settle_reaches hinput fuel c).trans hevent).trans hrest

theorem stage_reaches {input : ι} (hinput : forall c, permitted c (.actor input))
    {script : List (Event ι ε)}
    (hscript : forall event, event ∈ script -> forall c, permitted c event)
    (fuel rest : Nat) (c : Config Op σ α) :
    Reaches M permitted c (M.stage input fuel script rest c) := by
  have hplayed : Reaches M permitted c
      ((M.play input fuel script c).getD c) := by
    cases hplay : M.play input fuel script c with
    | none => exact .refl
    | some c' => exact play_reaches hinput hscript hplay
  exact hplayed.trans (settle_reaches hinput rest _)

end Machine

end Interleave

import Loac.Interleave.Solo
import Loac.Interleave.Traces
import Loac.LateWakes.Keys

/-!
# Drains of states that are alike

The keys of replies that are gone cost a drain some rounds in which nothing
happens, and no budget.  Two drains of states that are alike therefore poll the
same replies: where one of them is about to pop a key, the other one pops what
it has in front of that key.
-/

namespace Loac

open Interleave Interleave.Prog

variable {V α β : Type} {A : ActorConfig} {turn : TurnContext}
  {w w' w₁ : World V} {before after rest : List Key} {key : Key}
  {s : Nat × Bool} {input : Input V}

/-!
## What is seen
-/

/-- What others see of a poll of the queue, and what its last test finds. -/
inductive Sight (V : Type) where
  | env (e : EnvAct)
  | user (site : UserSite) (input : Input V)
  | tested (empty : Bool)

def sights (c : Config (Op V) (World V) β) :
    Event (Input V) EnvAct -> List (Sight V)
  | .env e => [.env e]
  | .actor input =>
      match c.prog with
      | .act (.user site) _ => [.user site input]
      | .act (.sched (.readyIsEmpty _)) _ =>
          [.tested c.state.sched.ready.isEmpty]
      | _ => []

abbrev poller (V : Type) (A : ActorConfig) :
    Machine (Op V) (World V) (Input V) EnvAct ReplyPoll :=
  (machine V A).solo ReplyPoll

abbrev PollRuns (V : Type) (A : ActorConfig) :
    Config (Op V) (World V) ReplyPoll -> List (Sight V) ->
      Config (Op V) (World V) ReplyPoll -> Prop :=
  Machine.Traces (poller V A) sights

/-!
## The pieces of a drain
-/

/-- A reply whose key was popped is polled if its flag is set. -/
def pollPopped (key : Key) (scheduled : ScheduledFuture) (s : Nat × Bool) :
    P V ((Nat × Bool) ⊕ Option Bool) := do
  if ← sched (.takeReady key) then
    let ready ← scheduled.pollWithTask key
    if ready then
      Queue.complete key
      again (s.1 + 1, true)
    else if (← sched .held).isSome then
      done none
    else
      again (s.1 + 1, s.2)
  else
    again s

def probe (key : Key) (s : Nat × Bool) : P V ((Nat × Bool) ⊕ Option Bool) := do
  match ← sched (.find key) with
  | none => again s
  | some scheduled => pollPopped key scheduled s

def hunt (s : Nat × Bool) : P V ((Nat × Bool) ⊕ Option Bool) := do
  match ← sched .popReady with
  | none => done (some s.2)
  | some key => probe key s

/-- The mode is tested before a key is popped. -/
def ask (turn : TurnContext) (s : Nat × Bool) :
    P V ((Nat × Bool) ⊕ Option Bool) := do
  if ← differs turn.expectedMode then
    done (some s.2)
  else
    hunt s

def round (turn : TurnContext) (s : Nat × Bool) :
    P V ((Nat × Bool) ⊕ Option Bool) :=
  if s.1 < activePollBudget then ask turn s else done (some s.2)

/-- What a drain answers, by the queue that is left. -/
def verdict (completed empty : Bool) : ReplyPoll :=
  if empty then
    if completed then .progress else .pending
  else
    .budgetExhausted

/-- A drain that leaves keys behind wakes its own task. -/
def answer (completed empty : Bool) : P V ReplyPoll := do
  if empty then
    if completed then
      return .progress
    else
      return .pending
  else
    perform .wakeTask
    return .budgetExhausted

def lastTest (turn : TurnContext) (completed : Bool) : P V ReplyPoll := do
  answer completed (← sched (.readyIsEmpty turn))

def conclude (turn : TurnContext) : Option Bool -> P V ReplyPoll
  | none => return .leased
  | some completed => do
      if ← differs turn.expectedMode then
        return .progress
      else
        lastTest turn completed

def resume (turn : TurnContext) (p : P V ((Nat × Bool) ⊕ Option Bool)) :
    P V ReplyPoll :=
  p.bind fun r =>
    match r with
    | .inl s => .loop (round turn) s (conclude turn)
    | .inr result => conclude turn result

def head (turn : TurnContext) (s : Nat × Bool) : P V ReplyPoll :=
  .loop (round turn) s (conclude turn)

/-!
## Steps of one drain
-/

theorem step_act {op : Op V α} {next : α -> P V ReplyPoll} {a : α}
    (hexec : op.exec A input w = some (w₁, a)) :
    (poller V A).step ⟨w, .act op next⟩ (.actor input) =
      some ⟨w₁, next a⟩ := by
  show Option.map _ (op.exec A input w) = _
  rw [hexec]
  rfl

theorem of_step_act {op : Op V α} {next : α -> P V ReplyPoll}
    {d : Config (Op V) (World V) ReplyPoll}
    (hstep : (poller V A).step ⟨w, .act op next⟩ (.actor input) = some d) :
    exists w₁ a, op.exec A input w = some (w₁, a) ∧ d = ⟨w₁, next a⟩ := by
  change Option.map _ (op.exec A input w) = some d at hstep
  rcases Option.map_eq_some_iff.mp hstep with ⟨⟨w₁, a⟩, hexec, hd⟩
  exact ⟨w₁, a, hexec, hd.symm⟩

theorem step_head (input : Input V) :
    (poller V A).step ⟨w, head turn s⟩ (.actor input) =
      some ⟨w, resume turn (round turn s)⟩ := by
  show some (Config.mk w ((round turn s).bind _)) = _
  apply congrArg fun rest => some (Config.mk w ((round turn s).bind rest))
  funext r
  cases r <;> rfl

theorem round_active (hs : s.1 < activePollBudget) :
    (round turn s : P V _) = ask turn s :=
  if_pos hs

theorem round_spent (hs : ¬ s.1 < activePollBudget) :
    (round turn s : P V _) = done (some s.2) :=
  if_neg hs

theorem head_asks (hs : s.1 < activePollBudget) :
    PollRuns V A ⟨w, head turn s⟩ [] ⟨w, resume turn (ask turn s)⟩ := by
  have hstep : PollRuns V A ⟨w, head turn s⟩ []
      ⟨w, resume turn (round turn s)⟩ := .one (step_head .next)
  rw [round_active hs] at hstep
  exact hstep

theorem head_spent (hs : ¬ s.1 < activePollBudget) :
    PollRuns V A ⟨w, head turn s⟩ [] ⟨w, conclude turn (some s.2)⟩ := by
  have hstep : PollRuns V A ⟨w, head turn s⟩ []
      ⟨w, resume turn (round turn s)⟩ := .one (step_head .next)
  rw [round_spent hs] at hstep
  exact hstep

theorem ask_leaves (hmode : w.control.mode ≠ turn.expectedMode) :
    PollRuns V A ⟨w, resume turn (ask turn s)⟩ []
      ⟨w, conclude turn (some s.2)⟩ := by
  have hexec : (Op.differs turn.expectedMode : Op V Bool).exec A .next w =
      some (w, true) := by
    show some (w, decide _) = _
    rw [decide_eq_true hmode]
  exact .one (step_act hexec)

theorem ask_hunts (hmode : w.control.mode = turn.expectedMode) :
    PollRuns V A ⟨w, resume turn (ask turn s)⟩ []
      ⟨w, resume turn (hunt s)⟩ := by
  have hexec : (Op.differs turn.expectedMode : Op V Bool).exec A .next w =
      some (w, false) := by
    show some (w, decide _) = _
    rw [decide_eq_false (fun hne => hne hmode)]
  exact .one (step_act hexec)

theorem exec_popReady (input : Input V) (hready : w.sched.ready = key :: rest) :
    (Op.sched .popReady : Op V (Option Key)).exec A input w =
      some (w.withKeys rest, some key) := by
  show some ({ w with sched := w.sched.popReady.1 }, w.sched.popReady.2) = _
  unfold Sched.popReady
  rw [hready]
  rfl

/-- The key of a reply that is gone costs one round. -/
theorem hunt_skips (hready : w.sched.ready = key :: rest)
    (hgone : w.sched.isLive key = false) :
    PollRuns V A ⟨w, resume turn (hunt s)⟩ [] ⟨w.withKeys rest, head turn s⟩ := by
  have hprobe : PollRuns V A ⟨w, resume turn (hunt s)⟩ []
      ⟨w.withKeys rest, resume turn (probe key s)⟩ :=
    .one (step_act (exec_popReady .next hready))
  have hfind : (Op.sched (.find key) : Op V (Option ScheduledFuture)).exec A
      .next (w.withKeys rest) = some (w.withKeys rest, none) := by
    show some (w.withKeys rest, w.sched.items.get? key) = _
    rw [Option.isSome_eq_false_iff.mp hgone |> Option.isNone_iff_eq_none.mp]
  exact hprobe.trans (.one (step_act hfind))

/-- A drain gets past the keys of replies that are gone. -/
theorem head_hunts (hs : s.1 < activePollBudget)
    (hmode : w.control.mode = turn.expectedMode)
    (hready : w.sched.ready = before ++ after)
    (hgone : forall key, key ∈ before -> w.sched.isLive key = false) :
    PollRuns V A ⟨w, head turn s⟩ []
      ⟨w.withKeys after, resume turn (hunt s)⟩ := by
  induction before generalizing w with
  | nil =>
      have hafter : after = w.sched.ready := hready.symm
      have hsame : w.withKeys after = w := by
        rw [hafter]
        rfl
      rw [hsame]
      exact (head_asks hs).trans (ask_hunts hmode)
  | cons key rest ih =>
      have hskip : PollRuns V A ⟨w, head turn s⟩ []
          ⟨w.withKeys (rest ++ after), head turn s⟩ :=
        ((head_asks hs).trans (ask_hunts hmode)).trans
          (hunt_skips hready (hgone key List.mem_cons_self))
      exact hskip.trans (ih hmode rfl
        (fun other hmem => hgone other (List.mem_cons_of_mem key hmem)))

/-!
## Where two polls are
-/

/-- The operations that look at no queued key. -/
def keyless (V : Type) : Vocabulary (Op V) where
  uses := fun op => op.keyless = true
  gives := fun _ _ => True

theorem keyless_calm {parts : List Part}
    (hplaces : parts.contains .places = false) :
    HasCalm (keyless V) parts := by
  intro α op hpart hsteers
  have hnot : op.part ≠ .places := by
    intro heq
    rw [heq, hplaces] at hpart
    cases hpart
  cases op with
  | sched op =>
      cases op with
      | popReady => cases hsteers
      | readyIsEmpty _ => cases hsteers
      | markReady _ => exact absurd rfl hnot
      | place _ _ => exact absurd rfl hnot
      | reserve => exact absurd rfl hnot
      | _ => rfl
  | _ => rfl

theorem pollPopped_keyless (key : Key) (scheduled : ScheduledFuture)
    (s : Nat × Bool) :
    (pollPopped key scheduled s : P V _).Uses (keyless V) := by
  refine Within.seq (Within.perform rfl (fun _ _ => trivial)) fun ready => ?_
  refine Within.ite ?_ trivial
  refine Within.seq (pollWithTask_calm (keyless_calm rfl) key scheduled)
    fun ready => ?_
  refine Within.ite ?_ ?_
  · exact Within.seq (complete_calm (keyless_calm rfl) key) (fun _ => trivial)
  · refine Within.seq (Within.perform rfl (fun _ _ => trivial)) fun held => ?_
    exact Within.ite trivial trivial

/-- Once a key is popped, no other key is looked at before the next round. -/
theorem probe_keyless (key : Key) (s : Nat × Bool) :
    (probe key s : P V _).Uses (keyless V) := by
  refine Within.seq (Within.perform rfl (fun _ _ => trivial)) fun found => ?_
  cases found with
  | none => trivial
  | some scheduled => exact pollPopped_keyless key scheduled s

theorem answer_keyless (completed empty : Bool) :
    (answer completed empty : P V _).Uses (keyless V) := by
  refine Within.ite (Within.ite trivial trivial) ?_
  exact Within.seq (Within.perform rfl (fun _ _ => trivial)) (fun _ => trivial)

/-- The second poll waits before a round until the first one is to pop a key. -/
inductive Level (R : Pairing Key) (turn : TurnContext) :
    Config (Op V) (World V) ReplyPoll ->
      Config (Op V) (World V) ReplyPoll -> Prop where
  | starts {w w' : World V} : Alike R w w' -> w.sched.lease = none ->
      Level R turn ⟨w, Queue.poll turn⟩ ⟨w', Queue.poll turn⟩
  | heads {w w' : World V} (s : Nat × Bool) : Alike R w w' ->
      Level R turn ⟨w, head turn s⟩ ⟨w', head turn s⟩
  | asks {w w' : World V} (s : Nat × Bool) : Alike R w w' ->
      s.1 < activePollBudget ->
      Level R turn ⟨w, resume turn (ask turn s)⟩ ⟨w', head turn s⟩
  | skips {w w' : World V} (s : Nat × Bool) :
      Beside (Skipped R.rel) w w' ->
      Level R turn ⟨w, resume turn (hunt s)⟩ ⟨w', head turn s⟩
  | probes {w w' : World V} (s : Nat × Bool) (key : Key) : Alike R w w' ->
      w.sched.isLive key = false ->
      Level R turn ⟨w, resume turn (probe key s)⟩ ⟨w', head turn s⟩
  | hunts {w w' : World V} (s : Nat × Bool) :
      Beside (Fronted R.rel) w w' ->
      Level R turn ⟨w, resume turn (hunt s)⟩ ⟨w', resume turn (hunt s)⟩
  | rounds {w w' : World V} (p : P V ((Nat × Bool) ⊕ Option Bool)) :
      Alike R w w' -> p.Uses (keyless V) ->
      Level R turn ⟨w, resume turn p⟩ ⟨w', resume turn p⟩
  | concludes {w w' : World V} (completed : Bool) : Alike R w w' ->
      Level R turn ⟨w, conclude turn (some completed)⟩
        ⟨w', conclude turn (some completed)⟩
  | tests {w w' : World V} (completed : Bool) : Alike R w w' ->
      Level R turn ⟨w, lastTest turn completed⟩ ⟨w', lastTest turn completed⟩
  | settled {w w' : World V} (p : P V ReplyPoll) : Alike R w w' ->
      p.Uses (keyless V) -> Level R turn ⟨w, p⟩ ⟨w', p⟩

/-- The tests of the two polls found different queues. -/
structure Divided (R : Pairing Key) (empty : Bool)
    (c c' : Config (Op V) (World V) ReplyPoll) : Prop where
  trailing : R.trailing
  alike : Alike R c.state (c'.state.withTask c.state.task)
  answers : exists completed,
    (c.prog = answer completed empty ∨
      c.prog = .pure (verdict completed empty)) ∧
    c'.prog = .pure (verdict completed !empty)

/-- The two polls are level, or their last tests found different queues. -/
inductive Related (R : Pairing Key) (turn : TurnContext) :
    List (Sight V) -> Config (Op V) (World V) ReplyPoll ->
      List (Sight V) -> Config (Op V) (World V) ReplyPoll -> Prop where
  | level {seen : List (Sight V)} {c c' : Config (Op V) (World V) ReplyPoll} :
      Level R turn c c' -> Related R turn seen c seen c'
  | divided {seen : List (Sight V)} (empty : Bool) (envs : List EnvAct)
      {c c' : Config (Op V) (World V) ReplyPoll} :
      Divided R empty c c' ->
      Related R turn (seen ++ .tested empty :: envs.map .env) c
        (seen ++ .tested (!empty) :: envs.map .env) c'

/-!
## Steps of two polls
-/

variable {R : Pairing Key} {c c' d : Config (Op V) (World V) ReplyPoll}

/-- The second poll answers a step of the first one. -/
inductive Follows (R : Pairing Key) (A : ActorConfig) (turn : TurnContext)
    (seen : List (Sight V)) (d c' : Config (Op V) (World V) ReplyPoll) :
    Prop where
  | level {d' : Config (Op V) (World V) ReplyPoll} :
      PollRuns V A c' seen d' -> Level R turn d d' -> Follows R A turn seen d c'
  | divided {d' : Config (Op V) (World V) ReplyPoll} (empty : Bool) :
      seen = [.tested empty] -> PollRuns V A c' [.tested !empty] d' ->
      Divided R empty d d' -> Follows R A turn seen d c'

theorem Level.env {e : EnvAct} (h : Level R turn c c')
    (hexec : e.exec A c.state = some w₁) :
    exists w₁', e.exec A c'.state = some w₁' ∧
      Level R turn ⟨w₁, c.prog⟩ ⟨w₁', c'.prog⟩ := by
  cases h with
  | starts halike hlease =>
      rcases halike.env R.append hexec with ⟨w₁', hexec', halike'⟩
      refine ⟨w₁', hexec', .starts halike' ?_⟩
      rw [EnvAct.lease_exec hexec]
      exact hlease
  | heads s halike =>
      rcases halike.env R.append hexec with ⟨w₁', hexec', halike'⟩
      exact ⟨w₁', hexec', .heads s halike'⟩
  | asks s halike hs =>
      rcases halike.env R.append hexec with ⟨w₁', hexec', halike'⟩
      exact ⟨w₁', hexec', .asks s halike' hs⟩
  | skips s hskips =>
      rcases hskips.env Pairing.skipped_append hexec with
        ⟨w₁', hexec', hskips'⟩
      exact ⟨w₁', hexec', .skips s hskips'⟩
  | probes s key halike hgone =>
      rcases halike.env R.append hexec with ⟨w₁', hexec', halike'⟩
      refine ⟨w₁', hexec', .probes s key halike' ?_⟩
      unfold Sched.isLive
      rw [EnvAct.items_exec hexec]
      exact hgone
  | hunts s hfronts =>
      rcases hfronts.env Pairing.fronted_append hexec with
        ⟨w₁', hexec', hfronts'⟩
      exact ⟨w₁', hexec', .hunts s hfronts'⟩
  | rounds p halike huses =>
      rcases halike.env R.append hexec with ⟨w₁', hexec', halike'⟩
      exact ⟨w₁', hexec', .rounds p halike' huses⟩
  | concludes completed halike =>
      rcases halike.env R.append hexec with ⟨w₁', hexec', halike'⟩
      exact ⟨w₁', hexec', .concludes completed halike'⟩
  | tests completed halike =>
      rcases halike.env R.append hexec with ⟨w₁', hexec', halike'⟩
      exact ⟨w₁', hexec', .tests completed halike'⟩
  | settled p halike huses =>
      rcases halike.env R.append hexec with ⟨w₁', hexec', halike'⟩
      exact ⟨w₁', hexec', .settled p halike' huses⟩

theorem heads_step (halike : Alike R w w')
    (hstep : (poller V A).step ⟨w, head turn s⟩ (.actor input) = some d) :
    Follows R A turn [] d ⟨w', head turn s⟩ := by
  rw [step_head input] at hstep
  rw [← Option.some.inj hstep]
  by_cases hs : s.1 < activePollBudget
  · rw [round_active hs]
    exact .level .refl (.asks s halike hs)
  · rw [round_spent hs]
    exact .level (head_spent hs) (.concludes s.2 halike)

theorem asks_step (halike : Alike R w w') (hs : s.1 < activePollBudget)
    (hstep : (poller V A).step ⟨w, resume turn (ask turn s)⟩ (.actor input) =
      some d) :
    Follows R A turn [] d ⟨w', head turn s⟩ := by
  rcases of_step_act hstep with ⟨w₁, differs, hexec, hd⟩
  change some (w, decide (w.control.mode ≠ turn.expectedMode)) = _ at hexec
  cases hexec
  subst hd
  have hcontrol := halike.control
  by_cases hmode : w.control.mode = turn.expectedMode
  · rw [decide_eq_false (fun hne => hne hmode)]
    rw [← hcontrol] at hmode
    rcases R.commits halike.right with hskips | hcommits
    · exact .level .refl (.skips s ⟨halike.left, hskips⟩)
    · rcases hcommits with ⟨before, after, hready, hgone, hfronts⟩
      have hhunts : PollRuns V A ⟨w', head turn s⟩ [] _ :=
        head_hunts hs hmode hready (by
          intro key hmem
          rw [halike.left]
          exact hgone key hmem)
      refine .level hhunts (.hunts s ⟨?_, hfronts⟩)
      rw [halike.left]
      rfl
  · rw [decide_eq_true hmode]
    rw [← hcontrol] at hmode
    exact .level ((head_asks hs).trans (ask_leaves hmode))
      (.concludes s.2 halike)

theorem skips_step (hskips : Beside (Skipped R.rel) w w')
    (hstep : (poller V A).step ⟨w, resume turn (hunt s)⟩ (.actor input) =
      some d) :
    Follows R A turn [] d ⟨w', head turn s⟩ := by
  rcases of_step_act hstep with ⟨w₁, found, hexec, hd⟩
  rcases hskips.right with ⟨key, rest, hready, hgone, hrel⟩
  rw [exec_popReady input hready] at hexec
  cases hexec
  subst hd
  exact .level .refl (.probes s key ⟨hskips.left, hrel⟩ hgone)

theorem probes_step (halike : Alike R w w')
    (hgone : w.sched.isLive key = false)
    (hstep : (poller V A).step ⟨w, resume turn (probe key s)⟩ (.actor input) =
      some d) :
    Follows R A turn [] d ⟨w', head turn s⟩ := by
  rcases of_step_act hstep with ⟨w₁, found, hexec, hd⟩
  change some (w, w.sched.items.get? key) = _ at hexec
  rw [Option.isSome_eq_false_iff.mp hgone |> Option.isNone_iff_eq_none.mp]
    at hexec
  cases hexec
  subst hd
  exact .level .refl (.heads s halike)

theorem sights_keyless {op : Op V α} (hop : op.keyless = true)
    (next : α -> P V ReplyPoll) (w w' : World V) (input : Input V) :
    sights ⟨w', .act op next⟩ (.actor input : Event (Input V) EnvAct) =
      sights ⟨w, .act op next⟩ (.actor input) := by
  cases op with
  | sched op =>
      cases op with
      | readyIsEmpty _ => cases hop
      | _ => rfl
  | _ => rfl

theorem act_step {op : Op V α} {next : α -> P V ReplyPoll}
    (halike : Alike R w w') (hop : op.keyless = true)
    (hstep : (poller V A).step ⟨w, .act op next⟩ (.actor input) = some d) :
    exists w₁ w₁' a, d = ⟨w₁, next a⟩ ∧ Alike R w₁ w₁' ∧
      PollRuns V A ⟨w', .act op next⟩
        (sights ⟨w, .act op next⟩ (.actor input : Event (Input V) EnvAct))
        ⟨w₁', next a⟩ := by
  rcases of_step_act hstep with ⟨w₁, a, hexec, hd⟩
  rcases halike.exec hop hexec with ⟨w₁', hexec', halike'⟩
  refine ⟨w₁, w₁', a, hd, halike', ?_⟩
  rw [← sights_keyless hop next w w' input]
  exact .one (step_act hexec')

theorem hunts_step (hfronts : Beside (Fronted R.rel) w w')
    (hstep : (poller V A).step ⟨w, resume turn (hunt s)⟩ (.actor input) =
      some d) :
    Follows R A turn [] d ⟨w', resume turn (hunt s)⟩ := by
  rcases of_step_act hstep with ⟨w₁, found, hexec, hd⟩
  have hfront := hfronts.right
  revert hfront
  generalize hready : w.sched.ready = keys
  generalize hready' : w'.sched.ready = keys'
  intro hfront
  cases hfront with
  | none =>
      have hnone : forall w : World V, w.sched.ready = [] ->
          (Op.sched .popReady : Op V (Option Key)).exec A input w =
            some (w, none) := by
        intro w hready
        show some ({ w with sched := w.sched.popReady.1 },
          w.sched.popReady.2) = _
        unfold Sched.popReady
        rw [hready]
      rw [hnone w hready] at hexec
      cases hexec
      subst hd
      have halike : Alike R w w' := by
        refine ⟨hfronts.left, ?_⟩
        rw [hready, hready']
        exact R.nil _
      exact .level (.one (step_act (hnone w' hready')))
        (.concludes s.2 halike)
  | @some key rest rest' hrel =>
      rw [exec_popReady input hready] at hexec
      cases hexec
      subst hd
      have halike : Alike R (w.withKeys rest) (w'.withKeys rest') := by
        refine ⟨?_, hrel⟩
        rw [hfronts.left]
        rfl
      exact .level (.one (step_act (exec_popReady input hready')))
        (.rounds (probe key s) halike (probe_keyless key s))

theorem concludes_step {completed : Bool} (halike : Alike R w w')
    (hstep : (poller V A).step ⟨w, conclude turn (some completed)⟩
      (.actor input) = some d) :
    Follows R A turn [] d ⟨w', conclude turn (some completed)⟩ := by
  rcases act_step halike rfl hstep with
    ⟨w₁, w₁', differs, hd, halike', htraces⟩
  subst hd
  cases differs with
  | true => exact .level htraces (.settled (.pure .progress) halike' trivial)
  | false => exact .level htraces (.tests completed halike')

theorem withTask_alike (halike : Alike R w w') :
    w'.withTask w.task = w' := by
  rw [halike.left]
  rfl

theorem tests_step {completed : Bool} (halike : Alike R w w')
    (hstep : (poller V A).step ⟨w, lastTest turn completed⟩ (.actor input) =
      some d) :
    Follows R A turn [.tested w.sched.ready.isEmpty] d
      ⟨w', lastTest turn completed⟩ := by
  rcases of_step_act hstep with ⟨w₁, empty, hexec, hd⟩
  change some (w, w.sched.ready.isEmpty) = _ at hexec
  cases hexec
  subst hd
  have htest : PollRuns V A ⟨w', lastTest turn completed⟩
      [.tested w'.sched.ready.isEmpty]
      ⟨w', answer completed w'.sched.ready.isEmpty⟩ := by
    have hexec : (Op.sched (.readyIsEmpty turn) : Op V Bool).exec A .next w' =
        some (w', w'.sched.ready.isEmpty) := rfl
    exact .one (step_act hexec)
  by_cases hsame : w'.sched.ready.isEmpty = w.sched.ready.isEmpty
  · rw [hsame] at htest
    exact .level htest (.settled _ halike (answer_keyless completed _))
  · have hnot : w'.sched.ready.isEmpty = !w.sched.ready.isEmpty :=
      Bool.eq_not_of_ne hsame
    rw [hnot] at htest
    have htrailing : R.trailing := by
      rcases R.finishes halike.right with htrailing | hends
      · exact htrailing
      · exact absurd hends.symm hsame
    revert htest
    generalize w.sched.ready.isEmpty = empty
    intro htest
    cases empty with
    | false =>
        refine .divided false rfl htest {
          trailing := htrailing
          alike := ?_
          answers := ⟨completed, Or.inl rfl, by cases completed <;> rfl⟩ }
        rw [withTask_alike halike]
        exact halike
    | true =>
        have hexec : (Op.wakeTask : Op V Unit).exec A .next w' =
            some (w'.wakeIf true, ()) := rfl
        have hwake : PollRuns V A ⟨w', answer completed false⟩ []
            ⟨w'.wakeIf true, .pure .budgetExhausted⟩ :=
          .one (step_act hexec)
        refine .divided true rfl (htest.trans hwake) {
          trailing := htrailing
          alike := ?_
          answers := ⟨completed, Or.inl rfl, rfl⟩ }
        show Alike R w (w'.withTask w.task)
        rw [withTask_alike halike]
        exact halike

/-- A loop of a program with a continuation goes round within the program. -/
theorem step_resume_loop {β γ : Type} {body : β -> P V (β ⊕ γ)} {start : β}
    {next : γ -> P V ((Nat × Bool) ⊕ Option Bool)} (input : Input V) :
    (poller V A).step ⟨w, resume turn (.loop body start next)⟩
        (.actor input) =
      some ⟨w, resume turn ((body start).bind fun r =>
        match r with
        | .inl b => .loop body b next
        | .inr c => next c)⟩ := by
  unfold resume
  rw [Prog.bind_assoc]
  show some (Config.mk w ((body start).bind _)) = _
  apply congrArg fun rest => some (Config.mk w ((body start).bind rest))
  funext r
  cases r <;> rfl

theorem loop_uses {ρ β γ : Type} {body : β -> P V (β ⊕ γ)} {start : β}
    {next : γ -> P V ρ} {S : Vocabulary (Op V)}
    (huses : (Prog.loop body start next).Uses S) :
    ((body start).bind fun r =>
      match r with
      | .inl b => .loop body b next
      | .inr c => next c : P V ρ).Uses S := by
  rcases huses with ⟨I, hI, hbody⟩
  apply Within.bind (hbody start hI)
  intro r hr
  cases r with
  | inl b => exact ⟨I, hr, hbody⟩
  | inr c => exact hr

theorem rounds_step {p : P V ((Nat × Bool) ⊕ Option Bool)}
    (halike : Alike R w w') (huses : p.Uses (keyless V))
    (hstep : (poller V A).step ⟨w, resume turn p⟩ (.actor input) = some d) :
    Follows R A turn (sights ⟨w, resume turn p⟩
      (.actor input : Event (Input V) EnvAct)) d ⟨w', resume turn p⟩ := by
  cases p with
  | pure r =>
      cases r with
      | inl s => exact heads_step halike hstep
      | inr result =>
          cases result with
          | none => cases hstep
          | some completed => exact concludes_step halike hstep
  | throw => cases hstep
  | act op next =>
      rcases act_step halike huses.left hstep with
        ⟨w₁, w₁', a, hd, halike', htraces⟩
      subst hd
      exact .level htraces
        (.rounds (next a) halike' (huses.right a trivial))
  | loop body start next =>
      rw [step_resume_loop] at hstep
      rw [← Option.some.inj hstep]
      have hfirst : PollRuns V A ⟨w', resume turn (.loop body start next)⟩ [] _ :=
        .one (step_resume_loop input)
      exact .level hfirst (.rounds _ halike (loop_uses huses))

theorem settled_step {p : P V ReplyPoll} (halike : Alike R w w')
    (huses : p.Uses (keyless V))
    (hstep : (poller V A).step ⟨w, p⟩ (.actor input) = some d) :
    Follows R A turn
      (sights ⟨w, p⟩ (.actor input : Event (Input V) EnvAct)) d ⟨w', p⟩ := by
  cases p with
  | pure r => cases hstep
  | throw => cases hstep
  | act op next =>
      rcases act_step halike huses.left hstep with
        ⟨w₁, w₁', a, hd, halike', htraces⟩
      subst hd
      exact .level htraces
        (.settled (next a) halike' (huses.right a trivial))
  | loop body start next =>
      cases hstep
      have hloop : (poller V A).step ⟨w', .loop body start next⟩
          (.actor input) = some ⟨w', _⟩ := rfl
      exact .level (.one hloop) (.settled _ halike (loop_uses huses))

theorem starts_step (halike : Alike R w w') (hlease : w.sched.lease = none)
    (hstep : (poller V A).step ⟨w, Queue.poll turn⟩ (.actor input) = some d) :
    Follows R A turn [] d ⟨w', Queue.poll turn⟩ := by
  rcases of_step_act hstep with ⟨w₁, held, hexec, hd⟩
  change some (w, w.sched.lease) = _ at hexec
  rw [hlease] at hexec
  cases hexec
  subst hd
  have hexec' : (Op.sched .held : Op V (Option Key)).exec A input w' =
      some (w', none) := by
    show some (w', w'.sched.lease) = _
    rw [halike.left]
    exact congrArg (fun lease => some (_, lease)) hlease
  exact .level (.one (step_act hexec')) (.heads (0, false) halike)

end Loac

import Loac.LateWakes.Simulation
import Loac.EndOfLife.Publication

/-!
# PollRuns with a counterpart

Whatever happens in a poll of the queue, it also happens in a poll of a state
with additional keys of replies that are gone, and the other way round: the same
replies are polled, and the same ones are removed.  Only the last test of a
drain sees the additional keys.  A drain that has used up its budget with its
last key answers that it has nothing left, and its counterpart answers that it
has, where some of the additional keys stand behind that last key.
-/

namespace Loac

open Interleave Interleave.Prog

variable {V : Type} {A : ActorConfig} {turn : TurnContext} {w w' : World V}
  {R : Pairing Key} {c c' d : Config (Op V) (World V) ReplyPoll}
  {seen seen' : List (Sight V)} {trailing : Prop} {keys : List Key}

theorem Level.step {event : Event (Input V) EnvAct} (h : Level R turn c c')
    (hstep : (poller V A).step c event = some d) :
    Follows R A turn (sights c event) d c' := by
  cases event with
  | env e =>
      rcases Option.map_eq_some_iff.mp hstep with ⟨w₁, hexec, hd⟩
      rcases h.env hexec with ⟨w₁', hexec', hlevel⟩
      subst hd
      have hstep' : (poller V A).step c' (.env e) = some ⟨w₁', c'.prog⟩ := by
        show Option.map _ (e.exec A c'.state) = _
        rw [hexec']
        rfl
      have hfirst : PollRuns V A c' [.env e] ⟨w₁', c'.prog⟩ := .one hstep'
      exact .level hfirst hlevel
  | actor input =>
      cases h with
      | starts halike hlease => exact starts_step halike hlease hstep
      | heads s halike => exact heads_step halike hstep
      | asks s halike hs => exact asks_step halike hs hstep
      | skips s hskips => exact skips_step hskips hstep
      | probes s key halike hgone => exact probes_step halike hgone hstep
      | hunts s hfronts => exact hunts_step hfronts hstep
      | rounds p halike huses => exact rounds_step halike huses hstep
      | concludes completed halike => exact concludes_step halike hstep
      | tests completed halike => exact tests_step halike hstep
      | settled p halike huses => exact settled_step halike huses hstep

theorem Divided.env {e : EnvAct} {w₁ : World V} {empty : Bool}
    (h : Divided R empty c c') (hexec : e.exec A c.state = some w₁) :
    exists w₁', e.exec A c'.state = some w₁' ∧
      Divided R empty ⟨w₁, c.prog⟩ ⟨w₁', c'.prog⟩ := by
  rcases h.alike.env R.append hexec with ⟨w₁', hexec', halike⟩
  rcases EnvAct.exec_withTask c'.state.task hexec' with
    ⟨task, hback⟩
  refine ⟨w₁'.withTask task, hback, h.trailing, ?_, h.answers⟩
  show Alike R w₁ (w₁'.withTask w₁.task)
  rw [withTask_alike halike]
  exact halike

/-- Once the tests have found different queues, the second poll is over. -/
theorem Divided.actor {input : Input V} {empty : Bool}
    (h : Divided R empty c c')
    (hstep : (poller V A).step c (.actor input) = some d) :
    Divided R empty d c' ∧
      sights c (.actor input : Event (Input V) EnvAct) = [] := by
  rcases h.answers with ⟨completed, hanswers, hverdict⟩
  rcases c with ⟨w, prog⟩
  rcases hanswers with hprog | hprog
  · change prog = _ at hprog
    subst hprog
    cases empty with
    | true => cases completed <;> cases hstep
    | false =>
        rcases of_step_act hstep with ⟨w₁, _, hexec, hd⟩
        change some (w.wakeIf true, ()) = _ at hexec
        cases hexec
        subst hd
        refine ⟨⟨h.trailing, ⟨?_, h.alike.right⟩, completed, Or.inr rfl,
          hverdict⟩, rfl⟩
        have hstate := h.alike.left
        exact congrArg (fun w' => World.withTask w' (w.wakeIf true).task) hstate
  · change prog = _ at hprog
    subst hprog
    cases hstep

theorem related_simulates :
    (poller V A).Simulates sights (Related R turn) := by
  intro seen c seen' c' event d hrelated hstep
  cases hrelated with
  | level hlevel =>
      cases hlevel.step hstep with
      | level htraces hlevel' => exact ⟨_, _, htraces, .level hlevel'⟩
      | divided empty hseen htraces hdivided =>
          rw [hseen]
          exact ⟨_, _, htraces, .divided empty [] hdivided⟩
  | @divided seen empty envs _ _ hdivided =>
      cases event with
      | env e =>
          rcases Option.map_eq_some_iff.mp hstep with ⟨w₁, hexec, hd⟩
          rcases hdivided.env hexec with ⟨w₁', hexec', hdivided'⟩
          subst hd
          have hstep' : (poller V A).step c' (.env e) =
              some ⟨w₁', c'.prog⟩ := by
            show Option.map _ (e.exec A c'.state) = _
            rw [hexec']
            rfl
          refine ⟨[.env e], _, .one hstep', ?_⟩
          have hmore : Related R turn _ _ _ _ :=
            @Related.divided _ _ _ seen empty (envs ++ [e]) _ _ hdivided'
          simpa [sights] using hmore
      | actor input =>
          rcases hdivided.actor hstep with ⟨hdivided', hsights⟩
          rw [hsights]
          refine ⟨[], c', .refl, ?_⟩
          rw [List.append_nil, List.append_nil]
          exact .divided empty envs hdivided'

/-!
## PollRuns that are over
-/

def ended : Option ReplyPoll -> P V ReplyPoll
  | some result => .pure result
  | none => .throw

/-- Everything that is seen but for the tests of the queue. -/
def Sight.happens : Sight V -> Bool
  | .tested _ => false
  | _ => true

/--
The same things happen in two polls, and they leave states behind that differ in
the queued keys and in a wake of the task at most.  They end alike where the
last tests found the same, and otherwise some keys trail.
-/
structure Counterpart (trailing : Prop) (seen : List (Sight V)) (v : World V)
    (result : Option ReplyPoll) (seen' : List (Sight V)) (v' : World V)
    (result' : Option ReplyPoll) : Prop where
  events : seen'.filter Sight.happens = seen.filter Sight.happens
  state : v'.withTask v.task = v.withKeys v'.sched.ready
  answers : result' = result <-> seen' = seen
  trails : result' ≠ result -> trailing

theorem Level.ends {result : Option ReplyPoll} (h : Level R turn c c')
    (hprog : c.prog = ended result) :
    c'.prog = ended result ∧ Alike R c.state c'.state := by
  cases h with
  | rounds p halike _ => exact ⟨hprog, halike⟩
  | settled p halike _ => exact ⟨hprog, halike⟩
  | _ => cases result <;> cases hprog

theorem Divided.ends {empty : Bool} {result : Option ReplyPoll}
    (h : Divided R empty c c') (hprog : c.prog = ended result) :
    exists result', c'.prog = ended result' ∧ result' ≠ result := by
  rcases h.answers with ⟨completed, hanswers, hverdict⟩
  have hresult : result = some (verdict completed empty) := by
    rcases hanswers with hanswer | hanswer
    · rw [hanswer] at hprog
      cases empty with
      | true => cases completed <;> cases result <;> cases hprog <;> rfl
      | false => cases result <;> cases hprog
    · rw [hanswer] at hprog
      cases result with
      | none => cases hprog
      | some r =>
          cases hprog
          rfl
  refine ⟨some (verdict completed !empty), hverdict, ?_⟩
  rw [hresult]
  cases completed <;> cases empty <;> decide

theorem tested_ne {empty : Bool} {envs : List EnvAct} :
    seen ++ .tested (!empty) :: envs.map .env ≠
      seen ++ .tested empty :: envs.map .env := by
  intro heq
  have hsame := List.append_cancel_left heq
  cases empty <;> cases hsame

theorem polls_counterpart {v : World V} {result : Option ReplyPoll}
    (halike : Alike R w w') (hlease : w.sched.lease = none)
    (h : PollRuns V A ⟨w, Queue.poll turn⟩ seen ⟨v, ended result⟩) :
    exists seen' v' result',
      PollRuns V A ⟨w', Queue.poll turn⟩ seen' ⟨v', ended result'⟩ ∧
        Counterpart R.trailing seen v result seen' v' result' := by
  have hstart : Related R turn [] ⟨w, Queue.poll turn⟩ []
      ⟨w', Queue.poll turn⟩ := .level (.starts halike hlease)
  rcases Machine.Simulates.run related_simulates hstart h with
    ⟨seen', ⟨v', p'⟩, htraces, hrelated⟩
  generalize hc : (⟨v, ended result⟩ : Config (Op V) (World V) ReplyPoll) = c
    at hrelated
  have hprog : c.prog = ended result := by rw [← hc]
  have hstate : c.state = v := by rw [← hc]
  cases hrelated with
  | level hlevel =>
      rcases hlevel.ends hprog with ⟨hprog', halike'⟩
      change p' = _ at hprog'
      subst hprog'
      refine ⟨seen, v', result, htraces, rfl, ?_, ?_, ?_⟩
      · rw [← hstate, withTask_alike halike']
        exact halike'.left
      · exact ⟨fun _ => rfl, fun _ => rfl⟩
      · exact fun hne => absurd rfl hne
  | @divided seen empty envs _ _ hdivided =>
      rcases hdivided.ends hprog with ⟨result', hprog', hne⟩
      change p' = _ at hprog'
      subst hprog'
      refine ⟨_, v', result', htraces, ?_, ?_, ?_, fun _ => hdivided.trailing⟩
      · rw [List.filter_append, List.filter_append]
        rfl
      · rw [← hstate]
        exact hdivided.alike.left
      · exact ⟨fun heq => absurd heq hne, fun heq => absurd heq tested_ne⟩

def Counterparts (A : ActorConfig) (turn : TurnContext) (trailing : Prop)
    (w w' : World V) : Prop :=
  forall seen v result,
    PollRuns V A ⟨w, Queue.poll turn⟩ seen ⟨v, ended result⟩ ->
      exists seen' v' result',
        PollRuns V A ⟨w', Queue.poll turn⟩ seen' ⟨v', ended result'⟩ ∧
          Counterpart trailing seen v result seen' v' result'

/--
Late wakes add keys to the queue that name no reply of it.  The polls with and
without these keys are counterparts of each other.  They end alike unless the
last tests for ready keys find different queues, and they always end alike where
no additional key stands behind the last key.
-/
theorem late_wakes_overlooked (A : ActorConfig) (turn : TurnContext)
    (trailing : Prop) {w : World V} {keys : List Key}
    (hpadded : Padded w.sched.isLive trailing w.sched.ready keys)
    (hlease : w.sched.lease = none) :
    Counterparts A turn trailing w (w.withKeys keys) ∧
      Counterparts A turn trailing (w.withKeys keys) w := by
  constructor
  · intro seen v result hpolls
    have halike : Alike (padding Key trailing) w (w.withKeys keys) :=
      ⟨rfl, hpadded⟩
    exact polls_counterpart halike hlease hpolls
  · intro seen v result hpolls
    have halike : Alike (unpadding Key trailing) (w.withKeys keys) w :=
      ⟨rfl, hpadded⟩
    exact polls_counterpart halike hlease hpolls

/-!
## Sixteen replies and a late wake

The wake of a reply that is gone comes after sixteen replies were scheduled.
-/

def scheduleOne : P Unit Unit :=
  Queue.schedule fun _ => return .finishStream false

def sixteenCome : P Unit Unit := do
  scheduleOne
  let _ ← sched .popReady
  let _ ← sched (.takeReady 0)
  Queue.remove 0
  forEach (List.range 16) fun _ => scheduleOne

def pending : Input Unit :=
  .user (.returns none)

def sixteenReplies : World Unit :=
  (((machine Unit solitary).solo Unit).settle pending 200
    ⟨World.new Unit, sixteenCome⟩).state

def lateKeys : List Key :=
  sixteenReplies.sched.ready ++ [0]

def startPoll (w : World Unit) : Config (Op Unit) (World Unit) ReplyPoll :=
  ⟨w, Queue.poll runningTurn⟩

def polledPending (w : World Unit) : Config (Op Unit) (World Unit) ReplyPoll :=
  (poller Unit solitary).settle pending 400 (startPoll w)

def seenPending (w : World Unit) : List (Sight Unit) :=
  (poller Unit solitary).sightings sights pending 400 (startPoll w)

def answered (c : Config (Op Unit) (World Unit) ReplyPoll) : Option ReplyPoll :=
  match c.prog with
  | .pure result => some result
  | _ => none

theorem polls_pending {w : World Unit} {result : ReplyPoll}
    (hanswered : answered (polledPending w) = some result) :
    PollRuns Unit solitary (startPoll w) (seenPending w)
      ⟨(polledPending w).state, ended (some result)⟩ := by
  have htraces : PollRuns Unit solitary (startPoll w) (seenPending w)
      (polledPending w) := Machine.traces_settle pending 400 (startPoll w)
  revert hanswered htraces
  generalize polledPending w = c
  intro hanswered htraces
  rcases c with ⟨v, prog⟩
  cases prog with
  | pure r =>
      cases hanswered
      exact htraces
  | _ => cases hanswered

deriving instance DecidableEq for UserAct, Input, Sight

def sixteenPolls : List (Sight Unit) :=
  (List.range 16).map fun index => .user (.replyPoll (index + 1)) pending

theorem lateKeys_padded :
    Padded sixteenReplies.sched.isLive True sixteenReplies.sched.ready
      lateKeys := by
  apply Padded.behind
  · intro key hmem
    rw [List.mem_singleton.mp hmem]
    decide +kernel
  · trivial

/-- The late wake changes what the poll answers. -/
theorem lateWake_noticed :
    Padded sixteenReplies.sched.isLive True sixteenReplies.sched.ready
        lateKeys ∧
      sixteenReplies.sched.lease = none ∧
      exists seen v seen' v',
        PollRuns Unit solitary ⟨sixteenReplies, Queue.poll runningTurn⟩ seen
          ⟨v, ended (some .pending)⟩ ∧
        PollRuns Unit solitary
          ⟨sixteenReplies.withKeys lateKeys, Queue.poll runningTurn⟩ seen'
          ⟨v', ended (some .budgetExhausted)⟩ ∧
        seen.filter Sight.happens = sixteenPolls ∧
        seen'.filter Sight.happens = sixteenPolls := by
  refine ⟨lateKeys_padded, by decide +kernel, seenPending sixteenReplies, _,
    seenPending (sixteenReplies.withKeys lateKeys), _,
    polls_pending (by decide +kernel), polls_pending (by decide +kernel), ?_, ?_⟩
  · decide +kernel
  · decide +kernel

theorem sixteenReplies_counterparts :
    Counterparts solitary runningTurn True sixteenReplies
        (sixteenReplies.withKeys lateKeys) ∧
      Counterparts solitary runningTurn True
        (sixteenReplies.withKeys lateKeys) sixteenReplies :=
  late_wakes_overlooked solitary runningTurn True lateKeys_padded
    (by decide +kernel)

end Loac

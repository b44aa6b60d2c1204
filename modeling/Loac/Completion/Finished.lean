import Loac.Completion.Frame
import Loac.EndOfLife.Hunting

/-!
# A finished reply leaves the queue

The leased path of a poll tests the mode before it removes a reply that has
returned, and then does not remove it.  That is the only way in which a reply
outlives its own completion.
-/

namespace Loac

open Interleave Interleave.Prog

variable {V : Type} {A : ActorConfig}

/-- Every reply whose future returned has left the queue and the lease. -/
def Removed (w w' : World V) : Prop :=
  forall key, Readied w w' key ->
    w'.sched.items.get? key = none ∧ w'.sched.lease ≠ some key

theorem removed_of_concluded {w₀ : World V} {s : World V × Prop}
    (h : Concluded w₀ s) : Removed w₀ s.1 <-> ¬ s.2 := by
  cases h with
  | inl hcalm =>
      refine ⟨fun _ => hcalm.left, fun _ key hready => ?_⟩
      have hcleared := hcalm.right.others key (by simp)
      exact ⟨hcleared.gone hready, hcleared.free hready⟩
  | inr hleft =>
      rcases hleft with ⟨halarm, key, hready, hget⟩
      refine ⟨fun hremoved => ?_, fun hquiet => absurd halarm hquiet⟩
      exact absurd (hremoved key hready).left hget

def pollAlone (turn : TurnContext) : P V Unit := do
  let _ ← Queue.poll turn
  return ()

theorem pollAlone_removes (turn : TurnContext) {w w' : World V}
    {events : List (Event (Input V) EnvAct)}
    (hafter : (machine V A).after events ⟨w, pollAlone turn⟩ =
      some ⟨w', .pure ()⟩) :
    Removed w w' <->
      Machine.Passes (machine V A) (Machine.Unmarked (Overlooks w)) events
        ⟨w, pollAlone turn⟩ := by
  rcases Machine.watched_after (overlooks_sparing w) False hafter with
    ⟨alarm, hreach, halarm⟩
  have hstart : Safe (completionDiscipline w A) (fun _ => Concluded w)
      (fun _ => True) ⟨(w, False), pollAlone turn⟩ := by
    have hcalm : Serene w none (w, False) :=
      ⟨fun h => h, Tidy.start (fun hmended => hmended) rfl⟩
    refine ⟨trivial, (w, False), .refl, ?_⟩
    apply wp.seq (poll_concludes turn hcalm)
    intro _ s hs
    exact wp.pure hs
  have huses : (pollAlone turn : P V Unit).Uses (repertoire V replyParts) :=
    Within.seq (pollQueue_uses repertoire_has turn) (fun _ => trivial)
  have hsafe := (Safe.uncancelled completion_lawful (fun _ _ => trivial)
    (cancel_none rfl rfl) huses hstart (hreach.weaken ?_)).left
  · have hconcluded : Concluded w (w', alarm) := by
      rcases hsafe with ⟨_, s, hrely, hs⟩
      have hstable : (completionDiscipline w A).Stable (Concluded w) := by
        intro e s s' hinv htolerates henv hs
        cases hs with
        | inl hcalm =>
            exact Or.inl (calm_stable none e s s' hinv htolerates henv hcalm)
        | inr hleft =>
            rcases hleft with ⟨halarm, key, hready, hget⟩
            rcases attended_env henv with ⟨hbase, hsame⟩
            refine Or.inr ⟨?_, key, ?_, ?_⟩
            · rw [hsame]
              exact halarm
            · exact readied_stable key e s s' hinv htolerates henv hready
            · rw [EnvAct.items_exec hbase]
              exact hget
      exact hrely.keeps hstable hs
    rw [removed_of_concluded hconcluded]
    show ¬ alarm <-> _
    rw [halarm, false_or, Classical.not_not]
  · intro c event _
    exact Discipline.permits_all (fun _ _ _ => trivial) (fun _ _ => trivial)
      c event

abbrev Heedful (V : Type) :
    ActorState V -> Event (Input V) EnvAct -> Prop :=
  Machine.Unmarked (Overlooks (World.new V))

theorem finished_safe {c : ActorState V}
    (h : Machine.Reaches (machine V A) (Heedful V) (initial V A) c) :
    Safe (completionDiscipline (World.new V) A) (fun _ _ => True)
      (fun _ => True) (Machine.Config.watch c False) := by
  have hmended : Mended (World.new V) := by
    intro key scheduled hget
    cases hget
  have horderly : Orderly (World.new V) (World.new V, False) :=
    Or.inr ⟨fun h => h, Tidy.start (fun _ => hmended) rfl⟩
  apply completion_spine.safe completion_lawful (fun _ _ => rfl)
    (fun _ _ => trivial) trivial horderly
  apply (h.watched (overlooks_sparing _)).weaken
  intro c event _
  exact Discipline.permits_all (fun _ _ _ => trivial) (fun _ _ => trivial)
    c event

/--
A poll removes every reply that returns in it if and only if none of its mode
tests overlooks one.  In a run that overlooks none, no reply is polled after it
returned, and a reply that completes still owes its caller the result.
-/
theorem finished_reply_leaves_queue (V : Type) (A : ActorConfig) :
    (forall (turn : TurnContext) (w w' : World V)
      (events : List (Event (Input V) EnvAct)),
      (machine V A).after events ⟨w, pollAlone turn⟩ = some ⟨w', .pure ()⟩ ->
        (Removed w w' <->
          Machine.Passes (machine V A) (Machine.Unmarked (Overlooks w)) events
            ⟨w, pollAlone turn⟩)) ∧
    forall c : ActorState V,
      Machine.Reaches (machine V A) (Heedful V) (initial V A) c ->
        (forall key next, c.prog = .act (.user (.replyPoll key)) next ->
          ¬ Readied (World.new V) c.state key) ∧
        (forall key next, c.prog = .act (.sched (.takeReply key)) next ->
          exists scheduled reply,
            c.state.sched.items.get? key = some scheduled ∧
              scheduled.future = .completeReply (some reply)) := by
  refine ⟨fun turn w w' events => pollAlone_removes turn, ?_⟩
  intro c h
  have hsafe := finished_safe h
  have hmended : Mended (World.new V) := by
    intro key scheduled hget
    cases hget
  rcases c with ⟨w, prog⟩
  constructor
  · intro key next hprog
    subst hprog
    cases hsafe.demands with
    | inl halarm => exact halarm.elim
    | inr hready => exact hready
  · intro key next hprog
    subst hprog
    cases hsafe.demands with
    | inl halarm => exact halarm.elim
    | inr howes => exact howes hmended

/-!
## A reply that is overlooked
-/

def polling (c : ActorState V) : Option Key :=
  match c.prog with
  | .act (.user (.replyPoll key)) _ => some key
  | _ => none

def acquires : Event (Input Unit) EnvAct :=
  .actor (.user .acquireLease)

def wakesFirst : List (Event (Input Unit) EnvAct) :=
  [.env (.notifySwap 0), .env (.notifyPush 0), .env (.notifyWake 0)]

def leasedCall : List (Event (Input Unit) EnvAct) :=
  [.env .reserve, .env (.admitEnvelope .call), .actor (.spawn true),
    silent, ready, silent, silent, acquires, silent] ++ wakesFirst

def wokenReply : ActorState Unit :=
  (machine Unit sociable).stage .next 100 leasedCall 100
    (initial Unit sociable)

def overlookedCall : List (Event (Input Unit) EnvAct) :=
  leasedCall ++ [.env (.request .drain), ready, silent]

/-- The reply is woken once more after it returned, and polled again. -/
def polledAgain : ActorState Unit :=
  (machine Unit sociable).stage .next 100
    (overlookedCall ++ silent :: wakesFirst) 100 (initial Unit sociable)

def wokenWorld : World Unit :=
  ((machine Unit sociable).stage .next 100 leasedCall 0
    (initial Unit sociable)).state

def drainedPoll : List (Event (Input Unit) EnvAct) :=
  List.replicate 5 (.actor .next) ++ [.env (.request .drain), ready] ++
    List.replicate 4 (.actor .next) ++ [silent] ++
    List.replicate 2 (.actor .next)

def hasReturned (last : Option (ActorState V)) : Bool :=
  match last with
  | some ⟨_, .pure ()⟩ => true
  | _ => false

theorem returned_of {last : Option (ActorState V)} (w : World V)
    (h : hasReturned last = true) :
    last = some ⟨(last.map Config.state).getD w, .pure ()⟩ := by
  unfold hasReturned at h
  split at h
  · rfl
  · cases h

def drainedWorld : World Unit :=
  (((machine Unit sociable).after drainedPoll
    ⟨wokenWorld, pollAlone runningTurn⟩).map Config.state).getD wokenWorld

theorem drainedPoll_leaves :
    (machine Unit sociable).after drainedPoll
      ⟨wokenWorld, pollAlone runningTurn⟩ = some ⟨drainedWorld, .pure ()⟩ :=
  returned_of wokenWorld (by decide +kernel)

/-- The reply stays in the queue, and another poll of it follows its return. -/
theorem polledAgain_finished :
    (exists w w' : World Unit, exists events,
      (machine Unit sociable).after events ⟨w, pollAlone runningTurn⟩ =
        some ⟨w', .pure ()⟩ ∧ ¬ Removed w w') ∧
    Reachable sociable polledAgain ∧ polling polledAgain = some 0 ∧
      Readied (World.new Unit) polledAgain.state 0 := by
  refine ⟨⟨wokenWorld, drainedWorld, drainedPoll, drainedPoll_leaves, ?_⟩, ?_,
    by decide +kernel, by unfold Readied; decide +kernel⟩
  · intro hremoved
    have hready : Readied wokenWorld drainedWorld 0 := by
      unfold Readied
      decide +kernel
    have hgone := (hremoved 0 hready).left
    have hleft : (drainedWorld.sched.items.get? 0).isSome = true := by
      decide +kernel
    rw [hgone] at hleft
    cases hleft
  · exact Machine.stage_reaches (fun _ => trivial) (fun _ _ _ => trivial) _ _ _

/-- As long as no reply has returned, no mode test can overlook one. -/
theorem heedful_of_unready {c : ActorState V} (h : Reachable A c)
    (hunready : forall key, ¬ Readied (World.new V) c.state key) :
    Machine.Reaches (machine V A) (Heedful V) (initial V A) c := by
  induction h with
  | refl => exact .refl
  | @step c c' event _ _ hstep ih =>
      have hprolonged : Prolonged c.state c'.state := by
        cases Machine.effect_of_step hstep with
        | nothing hsame => exact Prolonged.same (by rw [hsame])
        | actor op next input b hprog hexec => exact Op.grown_exec hexec
        | env e henv =>
            exact Prolonged.same (congrArg Life.course (EnvAct.life_exec henv))
      have hbefore : forall key, ¬ Readied (World.new V) c.state key :=
        fun key hready => hunready key
          (Nat.lt_of_lt_of_le hready (hprolonged _))
      refine .step event (ih hbefore) ?_ hstep
      cases event with
      | env e => trivial
      | actor input =>
          unfold Heedful Machine.Unmarked
          dsimp only
          split
          · intro hmarked
            unfold Overlooks at hmarked
            split at hmarked
            · rcases hmarked with ⟨_, key, hready, _⟩
              exact hbefore key hready
            · exact hmarked
          · trivial

def Entry.unready : Entry -> Bool
  | .user (.replyPoll _) .ready => false
  | _ => true

/-- Both parts apply: to the poll above, and to the run before it. -/
theorem wokenReply_unfinished :
    (Removed wokenWorld drainedWorld <->
      Machine.Passes (machine Unit sociable)
        (Machine.Unmarked (Overlooks wokenWorld)) drainedPoll
        ⟨wokenWorld, pollAlone runningTurn⟩) ∧
    polling wokenReply = some 0 ∧
      ¬ Readied (World.new Unit) wokenReply.state 0 := by
  have hpolling : polling wokenReply = some 0 := by decide +kernel
  refine ⟨(finished_reply_leaves_queue Unit sociable).left runningTurn _ _ _
    drainedPoll_leaves, hpolling, ?_⟩
  have hreach : Reachable sociable wokenReply :=
    Machine.stage_reaches (fun _ => trivial) (fun _ _ _ => trivial) _ _ _
  have hunready : wokenReply.state.life.course.all Entry.unready = true := by
    decide +kernel
  have hheedful := heedful_of_unready hreach (by
    intro key hready
    have hmem : Entry.user (.replyPoll key) .ready ∈
        wokenReply.state.life.course :=
      List.count_pos_iff.mp (Nat.lt_of_le_of_lt (Nat.zero_le _) hready)
    have hno := List.all_eq_true.mp hunready _ hmem
    cases hno)
  have hpolls := ((finished_reply_leaves_queue Unit sociable).right
    wokenReply hheedful).left
  cases hprog : wokenReply.prog with
  | act op next =>
      unfold polling at hpolling
      rw [hprog] at hpolling
      cases op with
      | user site =>
          cases site with
          | replyPoll key =>
              injection hpolling with hkey
              rw [hkey] at hprog
              exact hpolls 0 next hprog
          | _ => cases hpolling
      | _ => cases hpolling
  | _ =>
      unfold polling at hpolling
      rw [hprog] at hpolling
      cases hpolling

end Loac

import Loac.Capacity.Dispatch
import Loac.Completion.Finished
import Loac.Idling.Turns
import Loac.Interleave.Scripts

/-!
# What a shutdown waits for

A stop waits for replies that have not returned, and a drain that is not awake
for those and for the envelopes of its queue, in every run in which no turn
forgets that nothing is left.  Each of the ways to forget leaves an actor that
waits for nothing.
-/

namespace Loac

open Interleave Interleave.Prog

variable {V : Type} {A : ActorConfig} {goal : Mode} {w w' : World V}

/-- A reply is left whose future has not returned. -/
def Unfinished (w : World V) : Prop :=
  exists key scheduled, w.sched.items.get? key = some scheduled ∧
    scheduled.returned = false

/-- No wake is outstanding, and no lifecycle hint is pending. -/
def Asleep (w : World V) : Prop :=
  w.task = false ∧ w.control.actorWake.poll.2 = false

theorem unfinished_of_awaiting (hawaiting : Awaiting none w)
    (hfilled : w.sched.items.isEmpty = false) : Unfinished w := by
  rcases Slots.isEmpty_eq_false_iff.mp hfilled with ⟨key, scheduled, hget⟩
  refine ⟨key, scheduled, hget, ?_⟩
  cases hreturned : scheduled.returned with
  | false => rfl
  | true => cases hawaiting key scheduled hget hreturned

/-- A suspended turn of the goal has something left to wait for, or is awake. -/
theorem turn_busy (hgoal : goal ≠ .running) (hsoft : goal.isHard = false)
    {c : ActorState V} {site : Site}
    (h : Machine.Reaches (machine V A) (Remembering V A goal) (initial V A) c)
    (hsuspended : suspendedAt c = some site) (hsite : site.turns = some goal)
    (hmode : c.state.control.mode = goal) :
    Awaiting none c.state ∧ (Busy goal c.state ∨
      (site ≠ .finishReplies ∧ c.state.task = true)) := by
  have hsafe := idling_safe hgoal h
  have hheading : Heading goal c.state := by
    refine ⟨?_, Or.inr hmode⟩
    rw [hmode]
    exact hsoft
  rcases c with ⟨w, prog⟩
  unfold suspendedAt at hsuspended
  dsimp only at hsuspended
  split at hsuspended
  · injection hsuspended with heq
    subst heq
    exact hsafe.demands hsite hheading
  · cases hsuspended

/-!
## Stop
-/

/--
In every run in which no turn forgets that nothing is left, a stop that is
suspended in its wait for replies waits for one that has not returned.
-/
theorem stop_waits (V : Type) (A : ActorConfig) (c : ActorState V)
    (h : Machine.Reaches (machine V A) (Remembering V A .stopping)
      (initial V A) c)
    (hsuspended : suspendedAt c = some .finishReplies)
    (hmode : c.state.control.mode = .stopping) : Unfinished c.state := by
  have hbusy := turn_busy (by simp) rfl h hsuspended rfl hmode
  rcases hbusy.right with (hfilled | hwaits) | hawake
  · exact unfinished_of_awaiting hbusy.left hfilled
  · cases hwaits.left
  · exact absurd rfl hawake.left

/-- Whether a step forgets nothing. -/
def remembers (goal : Mode) (c : ActorState V) (_ : Event (Input V) EnvAct) :
    Bool :=
  match c.prog with
  | .act (.differs expected) _ =>
      c.state.control.mode = expected ||
        c.state.sched.items.entries.all fun entry => !entry.2.returned
  | .act (.sched (.readyIsEmpty _)) _ => c.state.sched.ready.isEmpty
  | .act (.mail (.pollRecv turn)) _ =>
      turn.expectedMode ≠ goal || !c.state.mail.queue.isEmpty
  | _ => true

theorem remembers_remembering (c : ActorState V)
    (event : Event (Input V) EnvAct) (h : remembers goal c event = true) :
    Remembering V A goal c event := by
  cases event with
  | env e => trivial
  | actor input =>
      unfold Remembering Discipline.Permits
      unfold remembers at h
      dsimp only
      split
      · rename_i op next hprog
        rw [hprog] at h
        intro hforgets
        cases op with
        | differs expected =>
            cases Bool.or_eq_true_iff.mp h with
            | inl hmode => exact hforgets.right.left (of_decide_eq_true hmode)
            | inr hall =>
                apply hforgets.right.right
                intro key scheduled hget hreturned
                have hwaits := List.all_eq_true.mp hall (key, scheduled)
                  (Slots.get?_eq_some_iff.mp hget)
                simp [hreturned] at hwaits
        | sched op =>
            cases op with
            | readyIsEmpty turn =>
                exact hforgets.right.right.right (List.isEmpty_iff.mp h)
            | _ => exact hforgets
        | mail op =>
            cases op with
            | pollRecv turn =>
                cases Bool.or_eq_true_iff.mp h with
                | inl hother => exact of_decide_eq_true hother hforgets.right.left
                | inr hqueue =>
                    have hnone := hforgets.right.right.right.left
                    rw [hnone] at hqueue
                    cases hqueue
            | _ => exact hforgets
        | _ => exact hforgets
      · trivial

def pendingCall : List (Event (Input Unit) EnvAct) :=
  [.env .reserve, .env (.admitEnvelope .call), .actor (.spawn true),
    silent, ready, silent, silent, silent]

def waitingStop : ActorState Unit :=
  (machine Unit sociable).stage .next 100
    (pendingCall ++ [.env (.request .stop), silent]) 100 (initial Unit sociable)

theorem waitingStop_unfinished :
    suspendedAt waitingStop = some .finishReplies ∧
      Unfinished waitingStop.state := by
  have hsuspended : suspendedAt waitingStop = some .finishReplies := by
    decide +kernel
  refine ⟨hsuspended, stop_waits Unit sociable waitingStop
    (Machine.stage_permitted remembers_remembering (by decide +kernel))
    hsuspended (by decide +kernel)⟩

/-- A Stop is requested while the reply that holds the lease is polled. -/
def finishedStop : ActorState Unit :=
  (machine Unit sociable).stage .next 100
    (leasedCall ++ [.env (.request .stop), ready, silent, silent]) 100
    (initial Unit sociable)

/-- The last reply of a stop has completed, and its key is not queued. -/
def completedStop : ActorState Unit :=
  (machine Unit sociable).stage .next 100
    (pendingCall ++ [.env (.request .stop), silent] ++ wakesFirst ++
      [ready, silent, silent]) 5 (initial Unit sociable)

/-- The reply that is gone is woken before the ready keys are tested. -/
def idleStop : ActorState Unit :=
  (machine Unit sociable).stage .next 0 wakesFirst 200 completedStop

/--
A stop sleeps on a scheduler whose only reply has returned, and another one on
a scheduler without replies.
-/
theorem stop_sleeps :
    (Reachable sociable finishedStop ∧
      suspendedAt finishedStop = some .finishReplies ∧
      finishedStop.state.control.mode = .stopping ∧
      Asleep finishedStop.state ∧ ¬ Unfinished finishedStop.state) ∧
    (Reachable sociable idleStop ∧
      suspendedAt idleStop = some .finishReplies ∧
      idleStop.state.control.mode = .stopping ∧
      Asleep idleStop.state ∧ idleStop.state.sched.items.isEmpty = true ∧
      ¬ Unfinished idleStop.state) := by
  have hreach : Reachable sociable completedStop :=
    Machine.stage_reaches (fun _ => trivial) (fun _ _ _ => trivial) _ _ _
  refine ⟨⟨?_, by decide +kernel, by decide +kernel,
    by unfold Asleep; decide +kernel, ?_⟩, ?_, by decide +kernel,
    by decide +kernel, by unfold Asleep; decide +kernel, by decide +kernel, ?_⟩
  · exact Machine.stage_reaches (fun _ => trivial) (fun _ _ _ => trivial) _ _ _
  · rintro ⟨key, scheduled, hget, hwaits⟩
    have hall : finishedStop.state.sched.items.entries.all
        (fun entry => entry.2.returned) = true := by decide +kernel
    have hreturned := List.all_eq_true.mp hall (key, scheduled)
      (Slots.get?_eq_some_iff.mp hget)
    rw [hwaits] at hreturned
    cases hreturned
  · exact hreach.trans
      (Machine.stage_reaches (fun _ => trivial) (fun _ _ _ => trivial) _ _ _)
  · rintro ⟨key, scheduled, hget, _⟩
    have hempty : idleStop.state.sched.items.isEmpty = true := by decide +kernel
    rw [Slots.isEmpty_iff.mp hempty key] at hget
    cases hget

/-!
## Drain
-/

/--
In every run in which no turn forgets that nothing is left, a drain that is
suspended in a turn, and that no wake is outstanding for, waits for a reply that
has not returned, or has an envelope in its queue.
-/
theorem drain_waits (V : Type) (A : ActorConfig) (c : ActorState V)
    (h : Machine.Reaches (machine V A) (Remembering V A .draining)
      (initial V A) c)
    (hsuspended : suspendedAt c = some (.turn .draining))
    (hmode : c.state.control.mode = .draining)
    (hasleep : c.state.task = false) :
    Unfinished c.state ∨ c.state.mail.queue ≠ [] := by
  have hbusy := turn_busy (by simp) rfl h hsuspended rfl hmode
  rcases hbusy.right with (hfilled | hwaits) | hawake
  · exact Or.inl (unfinished_of_awaiting hbusy.left hfilled)
  · exact Or.inr hwaits.right
  · rw [hasleep] at hawake
    cases hawake.right

def waitingDrain : ActorState Unit :=
  (machine Unit sociable).stage .next 100
    (pendingCall ++ [.env (.request .drain), silent]) 100
    (initial Unit sociable)

theorem waitingDrain_unfinished :
    suspendedAt waitingDrain = some (.turn .draining) ∧
      (Unfinished waitingDrain.state ∨ waitingDrain.state.mail.queue ≠ []) := by
  have hsuspended : suspendedAt waitingDrain = some (.turn .draining) := by
    decide +kernel
  refine ⟨hsuspended, drain_waits Unit sociable waitingDrain
    (Machine.stage_permitted remembers_remembering (by decide +kernel))
    hsuspended (by decide +kernel) (by decide +kernel)⟩

/--
A call whose caller has given up is the last envelope of a drain, while a
reservation is held that is never used.
-/
def reservedDrain : ActorState Unit :=
  (machine Unit paired).stage .next 100
    [.env .reserve, .env .reserve, .env (.admitEnvelope .call),
      .env (.abandon 0), .env (.request .drain), .actor (.spawn true),
      silent, ready, silent, silent, silent] 100 (initial Unit paired)

/-- The drain sleeps, with no reply and no envelope left. -/
theorem reservedDrain_sleeps :
    Reachable paired reservedDrain ∧
      suspendedAt reservedDrain = some (.turn .draining) ∧
      reservedDrain.state.control.mode = .draining ∧
      Asleep reservedDrain.state ∧
      reservedDrain.state.sched.items.isEmpty = true ∧
      ¬ (Unfinished reservedDrain.state ∨
        reservedDrain.state.mail.queue ≠ []) := by
  refine ⟨Machine.stage_reaches (fun _ => trivial) (fun _ _ _ => trivial) _ _ _,
    by decide +kernel, by decide +kernel, by unfold Asleep; decide +kernel,
    by decide +kernel, ?_⟩
  intro hleft
  cases hleft with
  | inl hunfinished =>
      rcases hunfinished with ⟨key, scheduled, hget, _⟩
      have hempty : reservedDrain.state.sched.items.isEmpty = true := by
        decide +kernel
      rw [Slots.isEmpty_iff.mp hempty key] at hget
      cases hget
  | inr hqueue => exact hqueue (by decide +kernel)

end Loac

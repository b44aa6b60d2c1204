import Mathlib.Data.List.Perm.Subperm
import Loac.Backlog.Polls
import Loac.Completion.Finished

/-!
# The length of the ready queue

Every queued key belongs to a reply whose flag is set, or it was left over by a
poll of the lease holder.  Nothing else makes the queue longer.
-/

namespace Loac

open Interleave

variable {V : Type} {A : ActorConfig}

namespace Sched

/-- The replies in the queue whose ready flag is set. -/
def flagged (sched : Sched) : List Key :=
  sched.items.keys.filter fun key => (sched.wakes key).ready

/-- The keys that were given out and name no reply in the queue. -/
def departed (sched : Sched) : List Key :=
  (List.range sched.items.next).filter fun key => key ∉ sched.items.keys

/-- The keys that were given out and whose ready flag is set. -/
def waking (sched : Sched) : List Key :=
  (List.range sched.items.next).filter fun key => (sched.wakes key).ready

theorem count_waking {sched : Sched} {key : Key}
    (hkey : key < sched.items.next) :
    sched.waking.count key = sched.episode key := by
  have hnodup : sched.waking.Nodup := List.nodup_range.filter _
  unfold episode
  by_cases hready : (sched.wakes key).ready = true
  · rw [if_pos hready]
    apply List.count_eq_one_of_mem hnodup
    exact List.mem_filter.mpr ⟨List.mem_range.mpr hkey, hready⟩
  · rw [if_neg hready]
    apply List.count_eq_zero_of_not_mem
    intro hmem
    exact hready (List.mem_filter.mp hmem).right

/-- A reply whose flag is set is in the queue, or it is not. -/
theorem waking_length (sched : Sched) :
    sched.waking.length <= sched.flagged.length + sched.departed.length := by
  rw [← List.length_append]
  apply List.Subperm.length_le
  apply List.Nodup.subperm (List.nodup_range.filter _)
  intro key hkey
  rcases List.mem_filter.mp hkey with ⟨hrange, hready⟩
  by_cases hlive : key ∈ sched.items.keys
  · exact List.mem_append_left _ (List.mem_filter.mpr ⟨hlive, hready⟩)
  · exact List.mem_append_right _
      (List.mem_filter.mpr ⟨hrange, decide_eq_true hlive⟩)

end Sched

theorem Accounted.count_le {s : World V × List Key} (h : Accounted s)
    (key : Key) :
    s.1.sched.ready.count key <= s.1.sched.episode key + s.2.count key :=
  Nat.le_trans (Nat.le_add_right ..) (h.bounded key)

/-- The queue is part of the keys that wait and the keys that were left over. -/
theorem Accounted.subperm {s : World V × List Key} (h : Accounted s) :
    s.1.sched.ready.Subperm (s.1.sched.waking ++ s.2) := by
  apply List.subperm_ext_iff.mpr
  intro key hkey
  have hcount := h.count_le key
  have hknown : key < s.1.sched.items.next := by
    by_contra hle
    have hnone := h.known key (Nat.le_of_not_lt hle)
    have hpos := List.count_pos_iff.mpr hkey
    unfold Sched.backlog at hnone
    omega
  rw [List.count_append, Sched.count_waking hknown]
  exact hcount

/--
Every run has a record of the polls in which the lease holder left a key over.
In every state the ready queue is no longer than the replies in the queue whose
flag is set, the keys that name no reply any more, and the recorded polls
together.  A reply contributes one key if its flag is set, and one for each of
its recorded polls, at most.
-/
theorem ready_queue_proportional (V : Type) (A : ActorConfig) :
    (forall c : ActorState V, Reachable A c -> exists log,
      Machine.Reaches (overtaking V A) Machine.Anything
        ((initial V A).shadowing []) (c.shadowing log)) ∧
    forall (c : ActorState V) (log : List Key),
      Machine.Reaches (overtaking V A) Machine.Anything
        ((initial V A).shadowing []) (c.shadowing log) ->
      c.state.sched.ready.length <=
        c.state.sched.flagged.length + c.state.sched.departed.length +
          log.length ∧
      forall key, c.state.sched.ready.count key <=
        (if (c.state.sched.wakes key).ready then 1 else 0) + log.count key := by
  constructor
  · intro c h
    exact Machine.Reaches.shadowing [] h
  · intro c log h
    have haccounted : Accounted (c.state, log) := (key_safe h).inv
    refine ⟨?_, haccounted.count_le⟩
    have hlength := haccounted.subperm.length_le
    rw [List.length_append] at hlength
    have hwaking := Sched.waking_length c.state.sched
    change c.state.sched.ready.length <=
      c.state.sched.waking.length + log.length at hlength
    omega

def wokenTwice : List (Event (Input Unit) EnvAct) :=
  leasedCall ++ silent :: wakesFirst

def doubledQueue : ActorState Unit :=
  (machine Unit sociable).stage .next 100 wokenTwice 0 (initial Unit sociable)

theorem doubledQueue_disproportional :
    Reachable sociable doubledQueue ∧
      doubledQueue.state.sched.items.keys = [0] ∧
      doubledQueue.state.sched.departed = [] ∧
      doubledQueue.state.sched.ready = [0, 0] ∧
      ¬ doubledQueue.state.sched.ready.length <=
        doubledQueue.state.sched.flagged.length +
          doubledQueue.state.sched.departed.length :=
  ⟨Machine.stage_reaches (fun _ => trivial) (fun _ _ _ => trivial) _ _ _,
    by decide +kernel, by decide +kernel, by decide +kernel, by decide +kernel⟩

/-- The same run, with the record of the polls that leave a key over. -/
def doubledRecord : Config (Op Unit) (World Unit × List Key) Unit :=
  (overtaking Unit sociable).stage .next 100 wokenTwice 0
    ((initial Unit sociable).shadowing [])

/-- The second key was left over by the one poll that is recorded. -/
theorem doubledRecord_accounted :
    doubledRecord.state.2 = [0] ∧
      doubledRecord.state.1.sched.ready.length = 2 ∧
      doubledRecord.state.1.sched.ready.length <=
        doubledRecord.state.1.sched.flagged.length +
          doubledRecord.state.1.sched.departed.length +
            doubledRecord.state.2.length := by
  refine ⟨by decide +kernel, by decide +kernel, ?_⟩
  have hreach : Machine.Reaches (overtaking Unit sociable) Machine.Anything
      ((initial Unit sociable).shadowing []) doubledRecord :=
    Machine.stage_reaches (fun _ => trivial) (fun _ _ _ => trivial) _ _ _
  exact ((ready_queue_proportional Unit sociable).right
    ⟨doubledRecord.state.1, doubledRecord.prog⟩ doubledRecord.state.2
    hreach).left

end Loac

import Mathlib.Data.List.TakeWhile
import Loac.Backlog.Bound

/-!
# The keys ahead of a reply

A drain pops keys in the order in which they were queued, and wakes queue keys
at the end.  What is ahead of a ready reply only gets less, and every poll of
another reply uses up one key of it.
-/

namespace Loac

open Interleave

variable {V α : Type} {A : ActorConfig} {w w' w₀ : World V}
  {sched sched' : Sched} {key : Key} {bound : Nat}

namespace Sched

def polls (sched : Sched) (key : Key) : Nat :=
  (sched.wakes key).polls

def isLive (sched : Sched) (key : Key) : Bool :=
  (sched.items.get? key).isSome

def ahead (sched : Sched) (key : Key) : List Key :=
  sched.ready.takeWhile fun other => other ≠ key

/-- The reply is in the queue, its flag is set and its key is queued. -/
def Due (sched : Sched) (key : Key) : Prop :=
  sched.isLive key = true ∧ (sched.wakes key).ready = true ∧
    key ∈ sched.ready

theorem ready_ahead (h : key ∈ sched.ready) :
    exists rest, sched.ready = sched.ahead key ++ key :: rest := by
  unfold ahead
  generalize sched.ready = keys at h
  induction keys with
  | nil => cases h
  | cons first rest ih =>
      by_cases heq : first = key
      · subst heq
        exact ⟨rest, by simp⟩
      · have hmem : key ∈ rest := by
          cases h with
          | head => exact absurd rfl heq
          | tail _ hmem => exact hmem
        rcases ih hmem with ⟨tail, htail⟩
        refine ⟨tail, ?_⟩
        rw [List.takeWhile_cons, if_pos (by simpa using heq)]
        rw [List.cons_append, ← htail]

theorem not_mem_ahead (sched : Sched) (key : Key) : key ∉ sched.ahead key := by
  intro hmem
  have hne := List.mem_takeWhile_imp hmem
  simp at hne

end Sched

/-!
## What leaves the order alone
-/

/--
Keys are queued at the end, no reply below the bound begins a poll, loses its
flag, or comes back into the queue.
-/
structure Sched.Trails (bound : Nat) (sched sched' : Sched) : Prop where
  ready : exists more, sched'.ready = sched.ready ++ more
  fewer : forall key, sched'.polls key <= sched.polls key
  polls : forall key, key < bound -> sched'.polls key = sched.polls key
  flags : forall key, key < bound -> (sched.wakes key).ready = true ->
    (sched'.wakes key).ready = true
  live : forall key, key < bound -> sched'.isLive key = sched.isLive key
  next : sched.items.next <= sched'.items.next

namespace Sched.Trails

theorem of_same (hready : exists more, sched'.ready = sched.ready ++ more)
    (hpolls : forall key, sched'.polls key = sched.polls key)
    (hflags : forall key, (sched.wakes key).ready = true ->
      (sched'.wakes key).ready = true)
    (hlive : forall key, key < bound -> sched'.isLive key = sched.isLive key)
    (hnext : sched'.items.next = sched.items.next) : Trails bound sched sched' where
  ready := hready
  fewer := fun key => Nat.le_of_eq (hpolls key)
  polls := fun key _ => hpolls key
  flags := fun key _ => hflags key
  live := hlive
  next := Nat.le_of_eq hnext.symm

theorem refl (sched : Sched) : Trails bound sched sched :=
  of_same ⟨[], (List.append_nil _).symm⟩ (fun _ => rfl) (fun _ => id)
    (fun _ _ => rfl) rfl

theorem of_items (hready : sched'.ready = sched.ready)
    (hwakes : sched'.wakes = sched.wakes)
    (hlive : forall key, key < bound -> sched'.isLive key = sched.isLive key)
    (hnext : sched'.items.next = sched.items.next) :
    Trails bound sched sched' := by
  refine of_same ⟨[], by rw [hready, List.append_nil]⟩ ?_ ?_ hlive hnext
  · intro key
    unfold Sched.polls
    rw [hwakes]
  · intro key hkey
    rw [hwakes]
    exact hkey

end Sched.Trails

theorem Sched.polls_setWake (sched : Sched) (key other : Key)
    (wake : ReplyWake) :
    (sched.setWake key wake).polls other =
      if other = key then wake.polls else sched.polls other := by
  unfold polls
  show (Function.update sched.wakes key wake other).polls = _
  by_cases heq : other = key
  · rw [if_pos heq, heq, Function.update_self]
  · rw [if_neg heq, Function.update_of_ne heq]

theorem Sched.flags_setWake {wake : ReplyWake}
    (hwake : (sched.wakes key).ready = true -> wake.ready = true)
    (other : Key) (h : (sched.wakes other).ready = true) :
    ((sched.setWake key wake).wakes other).ready = true := by
  show (Function.update sched.wakes key wake other).ready = true
  by_cases heq : other = key
  · subst heq
    rw [Function.update_self]
    exact hwake h
  · rw [Function.update_of_ne heq]
    exact h

/-- The wake state changes, but not the polls, and keys are queued. -/
theorem Sched.Trails.setWake (key : Key) (wake : ReplyWake)
    (more : List Key) (hpolls : wake.polls = sched.polls key)
    (hflag : (sched.wakes key).ready = true -> wake.ready = true)
    (hready : sched'.ready = sched.ready ++ more)
    (hwakes : sched'.wakes = (sched.setWake key wake).wakes)
    (hitems : sched'.items = sched.items) : Trails bound sched sched' := by
  refine of_same ⟨more, hready⟩ ?_ ?_ ?_ (by rw [hitems])
  · intro other
    have hsame := Sched.polls_setWake sched key other wake
    unfold Sched.polls at hsame hpolls ⊢
    rw [hwakes, hsame]
    by_cases heq : other = key
    · rw [if_pos heq, heq]
      exact hpolls
    · rw [if_neg heq]
  · intro other hother
    rw [hwakes]
    exact Sched.flags_setWake hflag other hother
  · intro other _
    unfold Sched.isLive
    rw [hitems]

theorem EnvAct.trails {e : EnvAct} (h : e.exec A w = some w') :
    w.sched.Trails bound w'.sched := by
  cases e with
  | notifySwap key =>
      rw [EnvAct.exec] at h
      split at h
      · cases h
        show w.sched.Trails bound (w.sched.notifySwap key)
        unfold Sched.notifySwap
        split
        · exact .of_items rfl rfl (fun _ _ => rfl) rfl
        · exact .setWake key { w.sched.wakes key with
            ready := true, sets := (w.sched.wakes key).sets + 1 } [] rfl
            (fun _ => rfl) (List.append_nil _).symm rfl rfl
      · cases h
  | notifyPush index =>
      rcases Option.map_eq_some_iff.mp h with ⟨sched, hpush, hw'⟩
      subst hw'
      unfold Sched.notifyPush at hpush
      split at hpush
      · cases hpush
        exact .of_same ⟨_, rfl⟩ (fun _ => rfl) (fun _ => id) (fun _ _ => rfl) rfl
      · cases hpush
  | notifyWake index =>
      rcases Option.map_eq_some_iff.mp h with ⟨⟨sched, woken⟩, hwake, hw'⟩
      subst hw'
      unfold Sched.notifyWake at hwake
      split at hwake
      · rename_i key seen hcall
        cases hwake
        exact .setWake key { w.sched.wakes key with task := false } []
          rfl id (List.append_nil _).symm rfl rfl
      · cases hwake
  | _ =>
      have hsched : w'.sched = w.sched := by
        grind [EnvAct.exec, World.transact, World.wakeIf,
          Option.map_eq_some_iff]
      rw [hsched]
      exact .refl w.sched

/-- The operation may pop a key, begin a poll, or take a reply out. -/
def Op.serves : Op V α -> Bool
  | .sched .popReady => true
  | .sched (.takeReady _) => true
  | .sched (.remove _) => true
  | .sched .drain => true
  | .sched (.place _ _) => true
  | _ => false

theorem Sched.isLive_modify (sched : Sched) (key other : Key)
    (f : ScheduledFuture -> ScheduledFuture) :
    ((sched.items.modify key f).get? other).isSome = sched.isLive other := by
  unfold isLive
  rw [Slots.get?_modify]
  split
  · exact Option.isSome_map
  · rfl

theorem Op.trails {op : Op V α} {input : Input V} {a : α}
    (hop : op.serves = false) (hbound : bound <= w.sched.items.next)
    (h : op.exec A input w = some (w', a)) :
    w.sched.Trails bound w'.sched := by
  cases op with
  | sched op =>
      rw [(Op.sched_result h).left]
      cases op with
      | markReady key =>
          show w.sched.Trails bound (w.sched.markReady key)
          unfold Sched.markReady
          split
          · exact .refl w.sched
          · exact .setWake key { w.sched.wakes key with
              ready := true, marks := (w.sched.wakes key).marks + 1 } [key] rfl
              (fun _ => rfl) rfl rfl rfl
      | register key =>
          exact .setWake key { w.sched.wakes key with task := true } []
            rfl id (List.append_nil _).symm rfl rfl
      | reserve =>
          have hpolls := Sched.polls_setWake w.sched w.sched.items.next
          exact {
            ready := ⟨[], (List.append_nil _).symm⟩
            fewer := by
              intro key
              show (w.sched.setWake _ .new).polls key <= _
              rw [hpolls]
              split
              · exact Nat.zero_le _
              · exact Nat.le_refl _
            polls := by
              intro key hkey
              show (w.sched.setWake _ .new).polls key = _
              rw [hpolls, if_neg]
              intro heq
              subst heq
              exact absurd hbound (Nat.not_le_of_lt hkey)
            flags := by
              intro key hkey hready
              show ((w.sched.setWake _ .new).wakes key).ready = true
              show (Function.update w.sched.wakes _ _ key).ready = true
              rw [Function.update_of_ne]
              · exact hready
              · intro heq
                subst heq
                exact absurd hbound (Nat.not_le_of_lt hkey)
            live := fun _ _ => rfl
            next := Nat.le_succ _ }
      | takeReply key =>
          show w.sched.Trails bound (w.sched.takeReply key).1
          unfold Sched.takeReply
          split
          · exact .of_items rfl rfl
              (fun other _ => Sched.isLive_modify w.sched key other _) rfl
          · exact .refl w.sched
      | takeFinal key =>
          show w.sched.Trails bound (w.sched.takeFinal key).1
          unfold Sched.takeFinal
          split
          · exact .of_items rfl rfl
              (fun other _ => Sched.isLive_modify w.sched key other _) rfl
          · exact .refl w.sched
      | _ => first
          | exact .of_items rfl rfl (fun _ _ => rfl) rfl
          | cases hop
  | user site =>
      have hschedules := Op.user_schedules h
      revert hschedules
      generalize w'.sched = sched'
      intro hschedules
      cases hschedules with
      | returned key value _ =>
          exact .of_items rfl rfl
            (fun other _ => Sched.isLive_modify w.sched key other _) rfl
      | _ => exact .of_items rfl rfl (fun _ _ => rfl) rfl
  | _ =>
      rw [Op.sched_exec rfl h]
      exact .refl w.sched

/-!
## Replies that come into the queue
-/

theorem Sched.isLive_remove {other : Key}
    (h : ((sched.items.remove other).get? key).isSome = true) :
    sched.isLive key = true := by
  rw [Slots.get?_remove] at h
  split at h
  · cases h
  · exact h

theorem SchedOp.live_exec {op : SchedOp α}
    (hop : (Op.sched op : Op V α).places = false)
    (hlive : (op.exec sched).1.isLive key = true) : sched.isLive key = true := by
  cases op with
  | markReady other =>
      change (sched.markReady other).isLive key = true at hlive
      unfold Sched.markReady at hlive
      split at hlive <;> exact hlive
  | popReady =>
      change sched.popReady.1.isLive key = true at hlive
      unfold Sched.popReady at hlive
      split at hlive <;> exact hlive
  | takeReady other =>
      change (sched.takeReady other).1.isLive key = true at hlive
      unfold Sched.takeReady at hlive
      split at hlive <;> exact hlive
  | remove other => exact Sched.isLive_remove hlive
  | drain =>
      change sched.drain.1.isLive key = true at hlive
      unfold Sched.drain at hlive
      split at hlive
      · exact hlive
      · exact Sched.isLive_remove hlive
  | takeReply other =>
      change (sched.takeReply other).1.isLive key = true at hlive
      unfold Sched.takeReply at hlive
      split at hlive
      · exact (Sched.isLive_modify sched other key _).symm.trans hlive
      · exact hlive
  | takeFinal other =>
      change (sched.takeFinal other).1.isLive key = true at hlive
      unfold Sched.takeFinal at hlive
      split at hlive
      · exact (Sched.isLive_modify sched other key _).symm.trans hlive
      · exact hlive
  | _ => first
      | exact hlive
      | cases hop

/-- An operation brings no reply into the queue, unless it places it. -/
theorem Op.live_exec {op : Op V α} {input : Input V} {a : α}
    (hop : op.places = false) (h : op.exec A input w = some (w', a))
    (key : Key) (hlive : w'.sched.isLive key = true) :
    w.sched.isLive key = true := by
  cases op with
  | sched op =>
      rw [(Op.sched_result h).left] at hlive
      exact SchedOp.live_exec hop hlive
  | user site =>
      have hschedules := Op.user_schedules h
      revert hschedules hlive
      generalize w'.sched = sched'
      intro hlive hschedules
      cases hschedules with
      | returned other value _ =>
          exact (Sched.isLive_modify w.sched other key _).symm.trans hlive
      | _ => exact hlive
  | _ =>
      rw [Op.sched_exec rfl h] at hlive
      exact hlive

end Loac

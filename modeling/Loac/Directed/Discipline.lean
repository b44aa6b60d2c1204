import Loac.Containment.Awake
import Loac.Directed.Ledger
import Loac.Discarding.Passes

/-!
# Wakes that find the actor task

The last step of a wake goes through the waker that the last poll of the reply
left behind, and takes it away.  What has to hold where a wake takes that step,
and where a reply is marked, is stated here, and what follows for an actor that
is suspended in a turn: nothing that it should see is left.
-/

namespace Loac

open Interleave Interleave.Prog

variable {V α β γ : Type} {A : ActorConfig} {w w' : World V}
  {key other : Key} {late : Option Key} {sched sched' : Sched}
  {call : NotifyCall} {index : Nat}

/-!
## What is claimed
-/

/--
The task learns of a wake of a reply in the queue.  All keys are queued for
which a wake has set the flag, and there is a waker of the task or it is awake,
unless the reply is to be polled anyway: for the first time, or because of
another wake.
-/
def Rouses (w : World V) (call : NotifyCall) : Prop :=
  w.sched.isLive call.key = true ->
    ¬ w.sched.Pushing call.key ∧
      ((w.sched.wakes call.key).task = true ∨ w.task = true ∨
        w.sched.polls call.key = 0 ∨ w.sched.Owed call.key)

/-- Every wake of the reply that is over is followed by a poll. -/
def Sated (key : Key) (w : World V) : Prop :=
  w.sched.isLive key = true -> w.task = false ->
    0 < w.sched.polls key ∧ ¬ w.sched.Owed key

/-- The limit of replies is reached, or the inbox is empty and watched. -/
def InboxSeen (A : ActorConfig) (w : World V) : Prop :=
  w.task = false -> hasCapacity A w.sched.items.length = false ∨
    (w.mail.queue = [] ∧ w.mail.waker = true)

def ExitsSeen (w : World V) : Prop :=
  w.task = false -> w.kin.events = [] ∧ w.kin.waker = true

/-- Nothing is left that a turn should see. -/
structure AllSeen (A : ActorConfig) (w : World V) : Prop where
  inbox : w.sched.lease = none -> InboxSeen A w
  exits : w.sched.lease = none -> ExitsSeen w
  sated : w.sched.lease = none -> forall key, Sated key w
  holder : forall key, w.sched.lease = some key -> Sated key w

def DirectedDemands (A : ActorConfig) : {α : Type} -> Op V α -> World V -> Prop
  | _, .suspend (.turn .running), w => AllSeen A w
  | _, .sched (.markReady key), w => (w.sched.wakes key).marks = 0
  | _, _, _ => True

/-- Where a reply is marked, all keys are queued for which its flag was set. -/
def DirectedAdmits : {α : Type} -> Op V α -> Input V -> World V -> Prop
  | _, .sched (.markReady key), _, w => ¬ w.sched.Pushing key
  | _, _, _, _ => True

def DirectedTolerates : EnvAct -> World V -> Prop
  | .notifyWake index, w => forall call, w.sched.calls[index]? = some call ->
      Rouses w call
  | _, _ => True

def directed (V : Type) (A : ActorConfig) : Discipline (machine V A) where
  inv := fun w => w.sched.Ledger
  admits := DirectedAdmits
  tolerates := DirectedTolerates
  demands := DirectedDemands A

/-!
## What is known along the way
-/

/--
A reply that is to be polled has its flag set, and all keys queued for which a
wake has set it.  The key of a reply whose flag is set is queued, or about to be,
but for one key that was popped.
-/
structure Booked (late : Option Key) (sched : Sched) : Prop where
  filed : forall key, sched.isLive key = true ->
    sched.Owed key ∨ sched.polls key = 0 ->
      sched.flag key = true ∧ ¬ sched.Pushing key
  queued : forall key, sched.isLive key = true -> sched.flag key = true ->
    late = some key ∨ key ∈ sched.ready ∨ sched.Pushing key

theorem Booked.new : Booked none Sched.new where
  filed := fun _ hlive => by cases hlive
  queued := fun _ hlive => by cases hlive

theorem Booked.weaken (h : Booked none sched) : Booked late sched where
  filed := h.filed
  queued := fun key hlive hflag =>
    (h.queued key hlive hflag).elim (fun heq => by cases heq) Or.inr

theorem Booked.gone (h : Booked (some key) sched)
    (hgone : sched.isLive key = false) : Booked none sched where
  filed := h.filed
  queued := by
    intro other hlive hflag
    refine (h.queued other hlive hflag).imp ?_ id
    intro heq
    cases heq
    rw [hgone] at hlive
    cases hlive

theorem Booked.sated (h : Booked none w.sched) (hready : w.sched.ready = [])
    (key : Key) : Sated key w := by
  intro hlive _
  have hnever : ¬ (w.sched.Owed key ∨ w.sched.polls key = 0) := by
    intro hdue
    rcases h.filed key hlive hdue with ⟨hflag, hpushing⟩
    rcases h.queued key hlive hflag with hlate | hqueued | hlater
    · cases hlate
    · rw [hready] at hqueued
      cases hqueued
    · exact hpushing hlater
  exact ⟨Nat.pos_of_ne_zero fun hzero => hnever (Or.inr hzero),
    fun howed => hnever (Or.inl howed)⟩

theorem Booked.idle (h : Booked late w.sched)
    (hflag : w.sched.flag key = false) : Sated key w := by
  intro hlive _
  have hnever : ¬ (w.sched.Owed key ∨ w.sched.polls key = 0) := by
    intro hdue
    rw [(h.filed key hlive hdue).left] at hflag
    cases hflag
  exact ⟨Nat.pos_of_ne_zero fun hzero => hnever (Or.inr hzero),
    fun howed => hnever (Or.inl howed)⟩

theorem AllSeen.awake (htask : w.task = true) : AllSeen A w := by
  have hnever : w.task ≠ false := by
    rw [htask]
    exact Bool.noConfusion
  exact {
    inbox := fun _ hasleep => absurd hasleep hnever
    exits := fun _ hasleep => absurd hasleep hnever
    sated := fun _ _ _ hasleep => absurd hasleep hnever
    holder := fun _ _ _ hasleep => absurd hasleep hnever }

/-!
## Steps of a wake
-/

namespace Sched

theorem pushing_iff : sched.Pushing key <->
    exists index : Nat, exists call, sched.calls[index]? = some call ∧
      call.key = key ∧ call.push = true := by
  constructor
  · rintro ⟨call, hmem, hkey, hpush⟩
    rcases List.mem_iff_getElem?.mp hmem with ⟨index, hcall⟩
    exact ⟨index, call, hcall, hkey, hpush⟩
  · rintro ⟨index, call, hcall, hkey, hpush⟩
    exact ⟨call, List.mem_of_getElem? hcall, hkey, hpush⟩

theorem notifyWake_pushing {woken : Bool}
    (hwake : sched.notifyWake index = some (sched', woken)) (key : Key) :
    sched'.Pushing key <-> sched.Pushing key := by
  unfold Sched.notifyWake at hwake
  split at hwake
  · rename_i other seen hcall
    cases hwake
    constructor
    · rintro ⟨call, hmem, hkey, hpush⟩
      exact ⟨call, List.mem_of_mem_eraseIdx hmem, hkey, hpush⟩
    · intro hpushing
      rcases pushing_iff.mp hpushing with ⟨at', call, hat, hkey, hpush⟩
      refine ⟨call, List.mem_eraseIdx_iff_getElem?.mpr ⟨at', ?_, hat⟩, hkey,
        hpush⟩
      intro heq
      rw [heq, hcall] at hat
      cases hat
      cases hpush
  · cases hwake

theorem notifyWake_owed {woken : Bool}
    (hwake : sched.notifyWake index = some (sched', woken))
    (howed : sched'.Owed key) :
    sched.Owed key ∨ exists call, sched.calls[index]? = some call ∧
      call.key = key ∧ call.seen = sched.polls key := by
  have hpolls := (notifyWake_same hwake).polls key
  rcases howed with ⟨call, hmem, hkey, hseen⟩
  rw [hpolls] at hseen
  unfold Sched.notifyWake at hwake
  split at hwake
  · rename_i other seen hcall
    cases hwake
    cases List.mem_cons.mp hmem with
    | inl heq =>
        rw [heq] at hkey hseen
        exact Or.inr ⟨_, hcall, hkey, hseen⟩
    | inr hbefore => exact Or.inl ⟨call, hbefore, hkey, hseen⟩
  · cases hwake

end Sched

def Sched.noted (sched : Sched) (call : NotifyCall) : Sched :=
  { sched with calls := sched.calls ++ [call] }

theorem Sched.pushing_noted (sched : Sched) (call : NotifyCall) (key : Key) :
    (sched.noted call).Pushing key <->
      sched.Pushing key ∨ (call.key = key ∧ call.push = true) := by
  constructor
  · rintro ⟨other, hmem, hkey, hpush⟩
    cases List.mem_append.mp hmem with
    | inl hbefore => exact Or.inl ⟨other, hbefore, hkey, hpush⟩
    | inr hnow =>
        rw [List.mem_singleton.mp hnow] at hkey hpush
        exact Or.inr ⟨hkey, hpush⟩
  · rintro (⟨other, hmem, hkey, hpush⟩ | ⟨hkey, hpush⟩)
    · exact ⟨other, List.mem_append_left _ hmem, hkey, hpush⟩
    · exact ⟨call, List.mem_append_right _ (List.mem_singleton_self _), hkey,
        hpush⟩

namespace Sched

def raise (sched : Sched) (key : Key) : Sched :=
  sched.setWake key { sched.wakes key with
    ready := true, sets := (sched.wakes key).sets + 1 }

theorem wakes_raise (sched : Sched) (key : Key) :
    (sched.raise key).wakes key = { sched.wakes key with
      ready := true, sets := (sched.wakes key).sets + 1 } := by
  unfold raise
  rw [wakes_setWake, if_pos rfl]

theorem wakes_raise_other (sched : Sched) (hne : key ≠ other) :
    (sched.raise other).wakes key = sched.wakes key := by
  unfold raise
  rw [wakes_setWake, if_neg hne]

structure Told (sched sched' : Sched) (key : Key) : Prop where
  live : sched'.isLive key = sched.isLive key
  marks : (sched'.wakes key).marks = (sched.wakes key).marks
  polls : sched'.polls key = sched.polls key
  flag : sched.flag key = true -> sched'.flag key = true
  raised : sched'.flag key = true -> sched.flag key = true ∨ sched'.Pushing key
  pushing : sched.flag key = true -> sched'.Pushing key -> sched.Pushing key
  ready : key ∈ sched.ready -> key ∈ sched'.ready
  queued : sched.Pushing key -> key ∈ sched'.ready ∨ sched'.Pushing key

theorem Told.refl (sched : Sched) (key : Key) : sched.Told sched key where
  live := rfl
  marks := rfl
  polls := rfl
  flag := id
  raised := Or.inl
  pushing := fun _ => id
  ready := id
  queued := Or.inr

theorem notifySwap_told (sched : Sched) (other key : Key) :
    sched.Told (sched.notifySwap other) key := by
  unfold Sched.notifySwap
  by_cases hflag : (sched.wakes other).ready = true
  · rw [if_pos hflag]
    have hpushing := sched.pushing_noted
      { key := other, push := false, seen := (sched.wakes other).polls } key
    exact {
      live := rfl
      marks := rfl
      polls := rfl
      flag := id
      raised := Or.inl
      pushing := fun _ hnow => (hpushing.mp hnow).elim id
        (fun hnever => by cases hnever.right)
      ready := id
      queued := fun hbefore => Or.inr (hpushing.mpr (Or.inl hbefore)) }
  · rw [if_neg hflag]
    have hpushing : forall key, _ <-> sched.Pushing key ∨ _ :=
      (sched.raise other).pushing_noted
        { key := other, push := true, seen := (sched.wakes other).polls }
    have hbefore : sched.Pushing key -> _ := fun hbefore =>
      (hpushing key).mpr (Or.inl hbefore)
    by_cases heq : key = other
    · subst heq
      have hmarks : ((sched.raise key).wakes key).marks =
          (sched.wakes key).marks := by rw [sched.wakes_raise key]
      have hpolls : ((sched.raise key).wakes key).polls =
          (sched.wakes key).polls := by rw [sched.wakes_raise key]
      exact {
        live := rfl
        marks := hmarks
        polls := hpolls
        flag := fun hset => absurd hset hflag
        raised := fun _ => Or.inr ((hpushing key).mpr (Or.inr ⟨rfl, rfl⟩))
        pushing := fun hset => absurd hset hflag
        ready := id
        queued := fun hpending => Or.inr (hbefore hpending) }
    · have hwakes := sched.wakes_raise_other heq
      exact {
        live := rfl
        marks := congrArg ReplyWake.marks hwakes
        polls := congrArg ReplyWake.polls hwakes
        flag := (congrArg ReplyWake.ready hwakes).trans
        raised := fun hset =>
          Or.inl ((congrArg ReplyWake.ready hwakes).symm.trans hset)
        pushing := fun _ hnow => ((hpushing key).mp hnow).elim id
          (fun hnever => absurd hnever.left.symm heq)
        ready := id
        queued := fun hpending => Or.inr (hbefore hpending) }

theorem notifyPush_told (hpush : sched.notifyPush index = some sched')
    (key : Key) : sched.Told sched' key := by
  unfold Sched.notifyPush at hpush
  split at hpush
  · rename_i other seen hcall
    cases hpush
    exact {
      live := rfl
      marks := rfl
      polls := rfl
      flag := id
      raised := Or.inl
      pushing := by
        rintro _ ⟨call, hmem, hkey, hpush⟩
        cases List.mem_or_eq_of_mem_set hmem with
        | inl hbefore => exact ⟨call, hbefore, hkey, hpush⟩
        | inr hset =>
            rw [hset] at hpush
            cases hpush
      ready := List.mem_append_left _
      queued := by
        intro hpushing
        rcases pushing_iff.mp hpushing with ⟨place, call, hat, hkey, hpush⟩
        by_cases heq : place = index
        · rw [heq, hcall] at hat
          cases hat
          exact Or.inl (List.mem_append_right _
            (List.mem_singleton.mpr hkey.symm))
        · refine Or.inr (pushing_iff.mpr ⟨place, call, ?_, hkey, hpush⟩)
          rw [List.getElem?_set_ne (fun hsame => heq hsame.symm)]
          exact hat }
  · cases hpush

theorem notifyWake_told {woken : Bool}
    (hwake : sched.notifyWake index = some (sched', woken)) (key : Key) :
    sched.Told sched' key := by
  have hsame := (notifyWake_same hwake).wakes key
  have hpushing := notifyWake_pushing hwake key
  have hrest : sched'.items = sched.items ∧ sched'.ready = sched.ready := by
    unfold Sched.notifyWake at hwake
    split at hwake
    · cases hwake
      exact ⟨rfl, rfl⟩
    · cases hwake
  exact {
    live := by
      unfold Sched.isLive
      rw [hrest.left]
    marks := hsame.right.right.right
    polls := hsame.right.left
    flag := fun hset => hsame.left.trans hset
    raised := fun hset => Or.inl (hsame.left.symm.trans hset)
    pushing := fun _ => hpushing.mp
    ready := by
      rw [hrest.right]
      exact id
    queued := fun hbefore => Or.inr (hpushing.mpr hbefore) }

end Sched

theorem Booked.told (h : Booked late sched)
    (htold : forall key, sched.Told sched' key)
    (howed : forall key, sched.isLive key = true -> sched'.Owed key ->
      sched.flag key = true ∧ ¬ sched.Pushing key) : Booked late sched' where
  filed := by
    intro key hlive hdue
    rw [(htold key).live] at hlive
    rw [(htold key).polls] at hdue
    have hbefore : sched.flag key = true ∧ ¬ sched.Pushing key :=
      hdue.elim (howed key hlive) (fun hzero => h.filed key hlive (Or.inr hzero))
    exact ⟨(htold key).flag hbefore.left,
      fun hnow => hbefore.right ((htold key).pushing hbefore.left hnow)⟩
  queued := by
    intro key hlive hset
    rw [(htold key).live] at hlive
    rcases (htold key).raised hset with hbefore | hpushing
    · rcases h.queued key hlive hbefore with hlate | hqueued | hlater
      · exact Or.inl hlate
      · exact Or.inr (Or.inl ((htold key).ready hqueued))
      · exact Or.inr ((htold key).queued hlater)
    · exact Or.inr (Or.inr hpushing)

end Loac

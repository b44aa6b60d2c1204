import Loac.Capacity.Dispatch
import Loac.Completion.Finished
import Loac.Exclusion.Lanes
import Loac.Interleave.Scripts

/-!
# Mutual exclusion

While a reply holds the lease, no other reply is polled, no message is
dispatched and no hook of a child runs, in any run.  The lease of a reply that
has returned is another matter: it is freed when the reply leaves the queue,
and a mode test can keep the reply there.
-/

namespace Loac

open Interleave Interleave.Prog

variable {V : Type} {A : ActorConfig} {w w' : World V} {key : Key}

/-!
## Leaving the queue
-/

/-- Nothing is claimed of what a program does before it frees the lease. -/
theorem anything {p : P V Unit} :
    wp (alone V A Unit) p (fun _ _ => True)
      (fun _ => True) w := by
  have hkeeps : (Vocabulary.all : Vocabulary (Op V)).Keeps
      (alone V A Unit) (fun _ => True) := {
    stable := Discipline.Stable.true
    op := fun _ _ _ _ _ => ⟨trivial, fun _ _ _ _ _ _ => ⟨trivial, trivial⟩⟩ }
  exact (uses_all p).keeps hkeeps w trivial

theorem lease_free_stable (Q : Option Key -> Prop) :
    (alone V A Unit).Stable
      (fun w => Q w.sched.lease) := by
  intro e w w' _ _ henv hw
  have henv : e.exec A w = some w' := henv
  rw [EnvAct.lease_exec henv]
  exact hw

theorem forceRelease_frees {X : World V -> Prop} :
    wp (alone V A Unit) (sched .forceRelease)
      (fun _ w => w.sched.lease = none) X w := by
  apply wp.op Discipline.Stable.true trivial
  intro w _ _
  refine ⟨trivial, ?_⟩
  intro input w' _ _ hexec _
  rw [(Op.sched_result (solo_exec hexec)).left]
  rfl

theorem clear_frees (h : (machine V A).Returns Queue.clear w w' ()) :
    w'.sched.lease = none := by
  refine h.holds (X := fun _ => True)
    (Q := fun _ w => w.sched.lease = none)
    (lease_free_stable (fun lease => lease = none)) ?_
  apply wp.seq anything
  intro _ w _
  exact forceRelease_frees

theorem complete_frees
    (h : (machine V A).Returns (Queue.complete key) w w' ()) :
    w'.sched.lease ≠ some key := by
  refine h.holds (X := fun _ => True)
    (Q := fun _ w => w.sched.lease ≠ some key)
    (lease_free_stable (fun lease => lease ≠ some key)) ?_
  apply wp.seq anything
  intro _ w _
  apply wp.bind
  apply wp.op Discipline.Stable.true trivial
  intro w _ _
  refine ⟨trivial, ?_⟩
  intro input w' held _ hexec _
  rcases Op.sched_result (solo_exec hexec) with ⟨hworld, hheld⟩
  change w.sched.lease = held at hheld
  subst hworld
  apply wp.onlyIf
  · intro _
    apply wp.mono _ (fun _ hX => hX) forceRelease_frees
    intro _ w hfree heq
    rw [hfree] at heq
    cases heq
  · intro hother heq
    change w.sched.lease = some key at heq
    rw [hheld] at heq
    exact of_decide_eq_false hother heq

/-!
## Exclusion
-/

/--
While a reply holds the lease, only its own user code runs and the shutdown
hook, besides destructors and wakers, and nothing is dispatched.  Where a turn
begins, the lease names a reply of the queue.  As long as no mode test neglects
a reply that has returned, it names one that has not.  A reply that completes
does not hold the lease any more, and a queue that is cleared frees it.
-/
theorem lease_excludes (V : Type) (A : ActorConfig) :
    (forall c : ActorState V, Reachable A c ->
      forall key, c.state.sched.lease = some key ->
        (forall site next, c.prog = .act (.user site) next ->
          site.Shares key) ∧
        forall envelope next,
          c.prog ≠ .act (.mail (.beginDispatch envelope)) next) ∧
    (forall c : ActorState V, Reachable A c ->
      forall next, c.prog = .act .pollNotified next -> Seated False c.state) ∧
    (forall c : ActorState V,
      Machine.Reaches (machine V A) (Minding V) (initial V A) c ->
        forall next, c.prog = .act .pollNotified next ->
          Seated True c.state) ∧
    (forall key (w w' : World V),
      (machine V A).Returns (Queue.complete key) w w' () ->
        w'.sched.lease ≠ some key) ∧
    forall w w' : World V,
      (machine V A).Returns Queue.clear w w' () -> w'.sched.lease = none := by
  have hsafe : forall c : ActorState V, Reachable A c ->
      Safe (leaseDiscipline V A False) (fun _ _ => True) (fun _ => True) c :=
    fun c h => lease_safe (h.weaken fun _ _ _ hno => hno.elim)
  refine ⟨?_, ?_, ?_, fun _ _ _ => complete_frees, fun _ _ => clear_frees⟩
  · intro c h key hheld
    have hsafe := hsafe c h
    rcases c with ⟨w, prog⟩
    constructor
    · intro site next hprog
      subst hprog
      exact hsafe.demands key hheld
    · intro envelope next hprog
      subst hprog
      have hfree : w.sched.lease = none := hsafe.demands
      rw [hheld] at hfree
      cases hfree
  · intro c h next hprog
    have hsafe := hsafe c h
    rcases c with ⟨w, prog⟩
    subst hprog
    exact hsafe.demands
  · intro c h next hprog
    have hsafe : Safe (leaseDiscipline V A True) (fun _ _ => True)
        (fun _ => True) c := lease_safe (h.weaken fun _ _ hminding _ => hminding)
    rcases c with ⟨w, prog⟩
    subst hprog
    exact hsafe.demands

/-!
## A lease that is not freed
-/

/-- Whether the next step asks for the lifecycle notification. -/
def asking (c : ActorState V) : Bool :=
  match c.prog with
  | .act .pollNotified _ => true
  | _ => false

theorem asks_of (c : ActorState V) (h : asking c = true) :
    exists next, c.prog = .act .pollNotified next := by
  unfold asking at h
  split at h
  · exact ⟨_, by assumption⟩
  · cases h

/-- Whether a step passes where no mode test neglects a reply. -/
def minds (c : ActorState V) (_ : Event (Input V) EnvAct) : Bool :=
  match c.prog with
  | .act (.differs expected) _ =>
      c.state.control.mode = expected ||
        c.state.sched.items.entries.all fun entry => !entry.2.returned
  | _ => true

theorem minds_minding (c : ActorState V) (event : Event (Input V) EnvAct)
    (h : minds c event = true) : Minding V c event := by
  cases event with
  | env e => trivial
  | actor input =>
      unfold Minding Machine.Unmarked
      unfold minds at h
      dsimp only
      split
      · rename_i op next hprog
        rw [hprog] at h
        cases op with
        | differs expected =>
            intro hneglects
            cases Bool.or_eq_true_iff.mp h with
            | inl hmode => exact hneglects.left (of_decide_eq_true hmode)
            | inr hall =>
                apply hneglects.right
                intro key scheduled hget hreturned
                have hwaits := List.all_eq_true.mp hall (key, scheduled)
                  (Slots.get?_eq_some_iff.mp hget)
                simp [hreturned] at hwaits
        | _ => exact fun hneglects => hneglects
      · trivial

/-- The reply that leaked its lease is left behind by the mode test. -/
def leftLeased : ActorState Unit :=
  (machine Unit sociable).stage .next 100 (overlookedCall ++ [silent]) 14
    (initial Unit sociable)

/-- Where a turn of the drain begins, a reply that returned holds the lease. -/
theorem leftLeased_unseated :
    Reachable sociable leftLeased ∧ asking leftLeased = true ∧
      leftLeased.state.sched.lease = some 0 ∧
        ¬ Seated True leftLeased.state := by
  refine ⟨Machine.stage_reaches (fun _ => trivial) (fun _ _ _ => trivial) _ _ _,
    by decide +kernel, by decide +kernel, ?_⟩
  intro hseated
  have hheld : leftLeased.state.sched.lease = some 0 := by decide +kernel
  rcases hseated 0 hheld with ⟨scheduled, hget, hwaits⟩
  have hreturned : (leftLeased.state.sched.items.get? 0).all
      ScheduledFuture.returned = true := by decide +kernel
  rw [hget, Option.all_some, hwaits trivial] at hreturned
  cases hreturned

/-- Where a turn begins, the lease is held by a reply that was woken. -/
def askedLeased : ActorState Unit :=
  (machine Unit sociable).stage .next 100 leasedCall 2 (initial Unit sociable)

def completedLeased : ActorState Unit :=
  ((machine Unit sociable).solo Unit).stage .next 100 [silent, silent] 100
    ⟨wokenWorld, Queue.complete 0⟩

def clearedLeased : ActorState Unit :=
  ((machine Unit sociable).solo Unit).stage .next 100 [silent, silent] 100
    ⟨wokenWorld, Queue.clear⟩

/-- The holder is polled, seated, completed and cleared. -/
theorem askedLeased_excludes :
    UserSite.Shares 0 (.replyPoll 0) ∧ Seated False askedLeased.state ∧
      Seated True askedLeased.state ∧
        completedLeased.state.sched.lease ≠ some 0 ∧
          clearedLeased.state.sched.lease = none := by
  have hexcludes := lease_excludes Unit sociable
  rcases asks_of askedLeased (by decide +kernel) with ⟨next, hprog⟩
  refine ⟨?_, hexcludes.right.left askedLeased
    (Machine.stage_reaches (fun _ => trivial) (fun _ _ _ => trivial) _ _ _)
    next hprog, hexcludes.right.right.left askedLeased
    (Machine.stage_permitted minds_minding (by decide +kernel)) next hprog,
    ?_, ?_⟩
  · have hpolling : polling wokenReply = some 0 := by decide +kernel
    have hreach : Reachable sociable wokenReply :=
      Machine.stage_reaches (fun _ => trivial) (fun _ _ _ => trivial) _ _ _
    have hshares := (hexcludes.left wokenReply hreach 0 (by decide +kernel)).left
    unfold polling at hpolling
    split at hpolling
    · rename_i key next hprog
      injection hpolling with hkey
      rw [← hkey]
      exact hkey ▸ hshares (.replyPoll key) next hprog
    · cases hpolling
  · have hmeets : (machine Unit sociable).Meets (Queue.complete 0) wokenWorld
        completedLeased :=
      Machine.stage_reaches (fun _ => trivial) (fun _ _ _ => trivial) _ _ _
    rcases hmeets.returned (by decide +kernel) with ⟨_, hreturns⟩
    exact hexcludes.right.right.right.left 0 _ _ hreturns
  · have hmeets : (machine Unit sociable).Meets Queue.clear wokenWorld
        clearedLeased :=
      Machine.stage_reaches (fun _ => trivial) (fun _ _ _ => trivial) _ _ _
    rcases hmeets.returned (by decide +kernel) with ⟨_, hreturns⟩
    exact hexcludes.right.right.right.right _ _ hreturns

end Loac

import Loac.Exclusion.Polls

/-!
# Turns under a lease

A turn that finds the lease held polls the holder and nothing else.  Any other
turn visits its lanes as long as the lease is free: a lane that leaves it held
ends the turn.
-/

namespace Loac

open Interleave Interleave.Prog

variable {V α β γ : Type} {A : ActorConfig} {heed : Prop} {w w' : World V}
  {key : Key}

/-!
## The ready queue
-/

/-- A mode test that finds a change finds no reply that has returned. -/
theorem differs_occupied (expected : Mode) {late : Option Key}
    {X : World V -> Prop} (hw : Occupied heed key late w) :
    wp (leaseDiscipline V A heed) (differs expected)
      (fun differs w => Occupied heed key late w ∧
        (differs = true -> heed -> Awaiting none w)) X w := by
  apply wp.op Occupied.ofQueue.stable hw
  intro w _ hw
  refine ⟨trivial, ?_⟩
  intro input w' differs hadmits hexec _
  cases hexec
  refine ⟨hw, fun hdiffers hheed => ?_⟩
  by_contra hneglected
  exact hadmits hheed ⟨of_decide_eq_true hdiffers, hneglected⟩

theorem pollLeased_leased (turn : TurnContext) (hmailbox : A.mailbox ≠ none)
    (hw : Leased A heed w ∧ w.sched.lease = some key) :
    wp (leaseDiscipline V A heed) (Queue.pollLeased turn key)
      (fun _ => Leased A heed) (fun _ => True) w := by
  have hholds : OfQueue (V := V)
      (fun w => Leased A heed w ∧ w.sched.lease = some key) :=
    Leased.ofQueue.and (lease_ofQueue (fun lease => lease = some key))
  apply wp.bind
  apply wp.op hholds.stable hw
  intro w _ hw
  refine ⟨trivial, ?_⟩
  intro input w' found _ hexec _
  rcases Op.sched_result (machine_exec hexec) with ⟨hworld, hfound⟩
  have hmember := hw.left.holder key hw.right
  change w.sched.items.get? key = found at hfound
  cases found with
  | none => exact absurd hfound hmember
  | some scheduled =>
      have hserving : Occupied heed key none w' := by
        rw [hworld]
        exact ⟨⟨Or.inr hw.right, hw.left.awaiting⟩, hmember⟩
      have htakes : Keeps (leaseDiscipline V A heed) (Occupied heed key none)
          (fun _ => True) (sched (.takeReady key)) :=
        Occupied.ofQueue.perform _ ⟨rfl, rfl⟩ (fun _ _ => trivial)
      apply wp.seq (htakes w' hserving)
      intro ready w hw
      cases ready with
      | false => exact wp.pure (hw.leased hmailbox hw.awaiting)
      | true =>
          apply wp.seq (pollWithTask_occupied scheduled hw)
          intro ready w hw
          have hlooks : Keeps (leaseDiscipline V A heed)
              (Occupied heed key (lateIf key ready)) (fun _ => True)
              (sched .held) :=
            Occupied.ofQueue.perform _ ⟨rfl, rfl⟩ (fun _ _ => trivial)
          apply wp.seq (hlooks w hw)
          intro held w hw
          apply wp.seq (differs_occupied turn.expectedMode hw)
          intro differs w hw
          cases differs with
          | true => exact wp.pure (hw.left.leased hmailbox (hw.right rfl))
          | false =>
              cases ready with
              | true =>
                  apply wp.seq (complete_vacant hw.left.toOwn)
                  intro _ w hw
                  exact wp.pure hw.leased
              | false =>
                  have hleased := hw.left.leased hmailbox hw.left.awaiting
                  by_cases hheld : held = some key
                  · simp only [if_pos hheld]
                    exact wp.pure hleased
                  · simp only [if_neg hheld]
                    exact wp.pure hleased

def Drain (A : ActorConfig) (heed : Prop) : Option Bool -> World V -> Prop
  | none => Leased A heed
  | some _ => Vacant heed

theorem drainRound_vacant (hmailbox : A.mailbox ≠ none) (polled : Nat)
    (completed : Bool) (hw : Occupied heed key none w)
    (scheduled : ScheduledFuture) :
    wp (leaseDiscipline V A heed) (do
        let ready ← scheduled.pollWithTask key
        if ready then
          Queue.complete key
          again (polled + 1, true)
        else if (← sched .held).isSome then
          done none
        else
          again (polled + 1, completed) :
        P V ((Nat × Bool) ⊕ Option Bool))
      (Splits (fun _ => Vacant heed) (Drain A heed)) (fun _ => True) w := by
  apply wp.seq (pollWithTask_occupied scheduled hw)
  intro ready w hw
  cases ready with
  | true =>
      apply wp.seq (complete_vacant hw.toOwn)
      intro _ w hw
      exact wp.again hw
  | false =>
      apply wp.bind
      apply wp.op Occupied.ofQueue.stable hw
      intro w _ hw
      refine ⟨trivial, ?_⟩
      intro input w' held _ hexec _
      rcases Op.sched_result (machine_exec hexec) with ⟨hworld, hheld⟩
      change w.sched.lease = held at hheld
      subst hworld
      cases held with
      | some holder => exact wp.done (hw.leased hmailbox hw.awaiting)
      | none => exact wp.again ⟨hheld, hw.awaiting⟩

theorem drain_vacant (turn : TurnContext) (hmailbox : A.mailbox ≠ none)
    (hw : Vacant heed w) :
    wp (leaseDiscipline V A heed) (Queue.drain turn) (Drain A heed)
      (fun _ => True) w := by
  apply wp.rounds (fun _ => Vacant heed) hw
  intro state w hw
  rcases state with ⟨polled, completed⟩
  by_cases hbudget : polled < activePollBudget
  · simp only [if_pos hbudget]
    have hlooks : Keeps (leaseDiscipline V A heed) (Vacant heed)
        (fun _ => True) (differs turn.expectedMode) :=
      Vacant.ofQueue.perform _ ⟨rfl, rfl⟩ (fun _ _ => trivial)
    apply wp.seq (hlooks w hw)
    intro differs w hw
    cases differs with
    | true => exact wp.done hw
    | false =>
        have hpops : Keeps (leaseDiscipline V A heed) (Vacant heed)
            (fun _ => True) (sched .popReady) :=
          Vacant.ofQueue.perform _ ⟨rfl, rfl⟩ (fun _ _ => trivial)
        apply wp.seq (hpops w hw)
        intro popped w hw
        cases popped with
        | none => exact wp.done hw
        | some key =>
            apply wp.bind
            apply wp.op Vacant.ofQueue.stable hw
            intro w _ hw
            refine ⟨trivial, ?_⟩
            intro input w' found _ hexec _
            rcases Op.sched_result (machine_exec hexec) with ⟨hworld, hfound⟩
            change w.sched.items.get? key = found at hfound
            subst hworld
            cases found with
            | none => exact wp.again hw
            | some scheduled =>
                have hserving : Occupied heed key none w := by
                  refine ⟨⟨Or.inl hw.lease, hw.awaiting⟩, ?_⟩
                  rw [hfound]
                  exact Option.some_ne_none scheduled
                apply wp.bind
                apply wp.op (Vacant.ofQueue.and Occupied.ofQueue).stable
                  ⟨hw, hserving⟩
                intro w _ hw
                refine ⟨trivial, ?_⟩
                intro input w' ready _ hexec _
                have hboth := (Vacant.ofQueue.and Occupied.ofQueue).exec
                  ⟨rfl, rfl⟩ (machine_exec hexec) hw
                cases ready with
                | false => exact wp.again hboth.left
                | true =>
                    exact drainRound_vacant hmailbox polled completed
                      hboth.right scheduled
  · simp only [if_neg hbudget]
    exact wp.done hw

def ReplyPoll.Frees (A : ActorConfig) (heed : Prop) : ReplyPoll ->
    World V -> Prop
  | .leased => Leased A heed
  | _ => Vacant heed

theorem pollReady_vacant (turn : TurnContext) (hmailbox : A.mailbox ≠ none)
    (hw : Vacant heed w) :
    wp (leaseDiscipline V A heed) (Queue.pollReady turn)
      (ReplyPoll.Frees A heed) (fun _ => True) w := by
  have hop : forall {α : Type} (op : Op V α), op.part = .looks ->
      Keeps (leaseDiscipline V A heed) (Vacant heed) (fun _ => True)
        (perform op) := by
    intro α op hop
    have habides : op.part.abides = true := by
      rw [hop]
      rfl
    exact Vacant.ofQueue.perform op (Op.abides_same habides)
      (fun w hw => demands_of_free hw.lease)
  apply wp.seq (drain_vacant turn hmailbox hw)
  intro completed w hw
  cases completed with
  | none => exact wp.pure hw
  | some completed =>
      change Vacant heed w at hw
      apply wp.seq (hop (.differs turn.expectedMode) rfl w hw)
      intro differs w hw
      cases differs with
      | true => exact wp.pure hw
      | false =>
          apply wp.seq (hop (.sched (.readyIsEmpty turn)) rfl w hw)
          intro empty w hw
          cases empty with
          | true => cases completed <;> exact wp.pure hw
          | false =>
              apply wp.seq (hop .wakeTask rfl w hw)
              intro _ w hw
              exact wp.pure hw

/-- The lease is looked at once, when a poll of the queue begins. -/
theorem held_found {P : World V -> Prop} {X : World V -> Prop}
    (hP : OfQueue P) (hw : P w) :
    wp (leaseDiscipline V A heed) (sched .held)
      (fun held w => P w ∧ w.sched.lease = held) X w := by
  apply wp.op hP.stable hw
  intro w _ hw
  refine ⟨trivial, ?_⟩
  intro input w' held _ hexec _
  rcases Op.sched_result (machine_exec hexec) with ⟨hworld, hheld⟩
  rw [hworld]
  exact ⟨hw, hheld⟩

theorem poll_vacant (turn : TurnContext) (hmailbox : A.mailbox ≠ none)
    (hw : Vacant heed w) :
    wp (leaseDiscipline V A heed) (Queue.poll turn) (ReplyPoll.Frees A heed)
      (fun _ => True) w := by
  apply wp.seq (held_found Vacant.ofQueue hw)
  intro held w hw
  cases held with
  | none => exact pollReady_vacant turn hmailbox hw.left
  | some key =>
      have hheld := hw.right
      rw [hw.left.lease] at hheld
      cases hheld

theorem ReplyPoll.Frees.leased {result : ReplyPoll}
    (h : result.Frees A heed w) : Leased A heed w := by
  cases result with
  | leased => exact h
  | _ => exact Vacant.leased h

theorem poll_leased (turn : TurnContext) (hmailbox : A.mailbox ≠ none) :
    Keeps (leaseDiscipline V A heed) (Leased A heed) (fun _ => True)
      (Queue.poll turn) := by
  intro w hw
  apply wp.seq (held_found Leased.ofQueue hw)
  intro held w hw
  cases held with
  | none =>
      apply wp.mono _ (fun _ hX => hX)
        (pollReady_vacant turn hmailbox (hw.left.vacant hw.right))
      exact fun _ _ hw => hw.leased
  | some key => exact pollLeased_leased turn hmailbox hw

/-!
## Scheduling
-/

theorem reserve_building {X : World V -> Prop} (hw : Vacant heed w) :
    wp (leaseDiscipline V A heed) (sched .reserve)
      (fun key => Building heed key) X w := by
  apply wp.op Vacant.ofQueue.stable hw
  intro w _ hw
  refine ⟨trivial, ?_⟩
  intro input w' key _ hexec _
  rcases Op.sched_result (machine_exec hexec) with ⟨hworld, hkey⟩
  change w.sched.items.next = key at hkey
  have hfree : w.sched.items.get? w.sched.items.next = none :=
    Slots.get?_of_next_le (Nat.le_refl _)
  rw [hworld, ← hkey]
  exact {
    lease := Or.inl hw.lease
    awaiting := hw.awaiting
    reserved := Nat.lt_succ_self _
    free := hfree }

theorem construct_building (key : Key) :
    Keeps (leaseDiscipline V A heed) (Building heed key) (fun _ => True)
      (callUser (.construct key)) := by
  have hstep : Keeps (leaseDiscipline V A heed) (Building heed key)
      (fun _ => True) (perform (.user (.construct key))) := by
    intro w hw
    apply wp.op Building.ofQueue.stable hw
    intro w _ hw
    refine ⟨hw.toOwn.demands (.construct key) rfl, ?_⟩
    intro input w' step _ hexec _
    have hexec := machine_exec hexec
    have hitems := Op.items_same (by rfl) hexec
    refine ⟨hw.toOwn.user (.construct key) rfl rfl hexec, ?_, ?_⟩
    · rw [hitems]
      exact hw.reserved
    · rw [hitems]
      exact hw.free
  refine Keeps.bind (Keeps.iter fun _ => Keeps.bind hstep fun step => ?_)
    (fun _ => Keeps.pure ())
  cases step with
  | continues => exact Keeps.again _
  | returns value => exact Keeps.done _
  | panics => exact Keeps.throw (fun _ _ => trivial)

theorem Building.place {future : ReplyFuture} (h : Building heed key w)
    (hmailbox : A.mailbox ≠ none) :
    Leased A heed { w with sched :=
      ((SchedOp.place key future).exec w.sched).1 } := by
  have hget := Slots.get?_place_of_free
    (a := { future := future, returned := false }) h.reserved h.free
  constructor
  · intro other hheld
    change w.sched.lease = some other at hheld
    show (w.sched.items.place key _).get? other ≠ none
    cases h.lease with
    | inl hfree =>
        rw [hfree] at hheld
        cases hheld
    | inr hown =>
        rw [hown] at hheld
        cases hheld
        rw [hget key, if_pos rfl]
        exact Option.some_ne_none _
  · intro hheed other scheduled hplaced hreturned
    change (w.sched.items.place key _).get? other = _ at hplaced
    rw [hget other] at hplaced
    by_cases heq : other = key
    · rw [if_pos heq] at hplaced
      cases hplaced
      cases hreturned
    · rw [if_neg heq] at hplaced
      exact h.awaiting hheed other scheduled hplaced hreturned
  · exact fun hnone => absurd hnone hmailbox

theorem schedule_leased {build : Key -> P V ReplyFuture}
    (hmailbox : A.mailbox ≠ none)
    (hbuild : forall key w, Building heed key w ->
      wp (leaseDiscipline V A heed) (build key) (fun _ => Building heed key)
        (fun _ => True) w)
    (hw : Vacant heed w) :
    wp (leaseDiscipline V A heed) (Queue.schedule build)
      (fun _ => Leased A heed) (fun _ => True) w := by
  apply wp.seq (reserve_building hw)
  intro key w hw
  apply wp.seq (hbuild key w hw)
  intro future w hw
  have hmark : Keeps (leaseDiscipline V A heed) (Building heed key)
      (fun _ => True) (sched (.markReady key)) :=
    Building.ofQueue.perform _ ⟨rfl, rfl⟩ (fun _ _ => trivial)
  apply wp.seq (hmark w hw)
  intro _ w hw
  apply wp.op Building.ofQueue.stable hw
  intro w _ hw
  refine ⟨trivial, ?_⟩
  intro input w' _ _ hexec _
  rw [(Op.sched_result (machine_exec hexec)).left]
  exact hw.place hmailbox

theorem lease_dispatching (hmailbox : A.mailbox ≠ none) :
    Dispatching (V := V) (leaseDiscipline V A heed) (Vacant heed)
      (Leased A heed) (fun _ => True) where
  falls := fun _ _ => trivial
  settles := fun _ hw => hw.leased
  decides := vacant_keeps rfl
  single := by
    intro reply w hw
    apply schedule_leased hmailbox _ hw
    intro key w hw
    apply wp.bind
    apply wp.attempt
    apply wp.mono _ _ (construct_building key w hw)
    · intro _ w hw
      exact wp.pure hw
    · intro w _
      have htrue : OfQueue (V := V) (fun _ => True) :=
        fun _ _ _ _ _ => trivial
      apply wp.seq (dropReply_keeps (htrue.keepsMeek rfl) reply w trivial)
      intro _ w _
      trivial
  stream := by
    intro reply w hw
    have hpays : (repertoire V payingParts).Keeps (leaseDiscipline V A heed)
        (Vacant heed) := vacant_keeps rfl
    apply wp.seq (completeReply_keeps hpays reply none w hw)
    intro _ w hw
    apply schedule_leased hmailbox _ hw
    intro key w hw
    apply wp.seq (construct_building key w hw)
    intro _ w hw
    exact wp.pure hw

end Loac

import Loac.Backlog.Leftovers

/-!
# Polls and dispatches

A drain takes the flag of the reply whose key it has popped, and a leased poll
takes the flag of the holder.  A dispatch marks the reply whose key it has just
been given.
-/

namespace Loac

open Interleave Interleave.Prog

variable {V α : Type} {A : ActorConfig} {key : Key} {w w' : World V}
  {s : World V × List Key} {K X : World V × List Key -> Prop}

/-- The operations that leave flags and keys alone. -/
def unpaced (V : Type) : Vocabulary (Op V) where
  uses := fun op => op.paces = false
  gives := fun _ _ => True

theorem Op.unpaced {op : Op V α} (hsteers : op.steers = false)
    (hplaces : op.part ≠ .places) : op.paces = false := by
  cases op with
  | sched op => cases op <;> first
      | rfl
      | exact absurd rfl hplaces
      | cases hsteers
  | _ => rfl

theorem unpaced_calm {parts : List Part}
    (hparts : parts.contains .places = false) : HasCalm (unpaced V) parts := by
  intro α op hop hsteers
  apply Op.unpaced hsteers
  intro hpart
  rw [hpart, hparts] at hop
  cases hop

theorem unpaced_has {parts : List Part}
    (hplaces : parts.contains .places = false)
    (htakes : parts.contains .takes = false) : Has (unpaced V) parts := by
  intro α op hop
  have hpart : op.part ≠ .places := by
    intro hpart
    rw [hpart, hplaces] at hop
    cases hop
  have htake : op.part ≠ .takes := by
    intro hpart
    rw [hpart, htakes] at hop
    cases hop
  show op.paces = false
  cases op with
  | sched op => cases op <;> first
      | rfl
      | exact absurd rfl hpart
      | exact absurd rfl htake
  | _ => rfl

theorem KeyDemands.unpaced {op : Op V α} (hop : op.paces = false)
    (s : World V × List Key) : KeyDemands op s := by
  cases op with
  | sched op => cases op <;> first
      | (cases hop; done)
      | trivial
  | _ => trivial

theorem unpaced_keeps (hstable : (keyDiscipline V A).Stable K)
    (hrests : forall s s' : World V × List Key,
      s.1.sched.Rests s'.1.sched -> s'.2 = s.2 -> K s -> K s') :
    (unpaced V).Keeps (keyDiscipline V A) K where
  stable := hstable
  op := by
    intro β op hop s _ hs
    refine ⟨KeyDemands.unpaced hop s, ?_⟩
    intro input s' b _ hexec _
    rcases Machine.shadowed_exec hexec with ⟨hbase, hlog⟩
    rw [leftovers_same hop] at hlog
    exact ⟨hrests s s' (Op.rests hop (machine_exec hbase)) hlog hs, trivial⟩

theorem anything_keeps :
    (unpaced V).Keeps (keyDiscipline V A) (fun _ => True) :=
  unpaced_keeps Discipline.Stable.true (fun _ _ _ _ _ => trivial)

theorem rests_safe {p : P V α} (hp : p.Uses (unpaced V)) :
    Keeps (keyDiscipline V A) (fun _ => True) (fun _ => True) p :=
  hp.keeps anything_keeps

theorem quiet_safe {op : Op V α} (hop : op.paces = false) :
    Keeps (keyDiscipline V A) (fun _ => True) (fun _ => True) (perform op) :=
  rests_safe (Within.perform hop (fun _ _ => trivial))

/-!
## Keys that are known
-/

theorem given_keeps :
    (unpaced V).Keeps (keyDiscipline V A) (Given key) := by
  apply unpaced_keeps
  · intro e s s' _ _ henv hs
    have hitems := EnvAct.items_exec (Machine.shadowed_env henv).left
    show key < s'.1.sched.items.next
    rw [hitems]
    exact hs
  · intro s s' hrests _ hs
    show key < s'.1.sched.items.next
    rw [hrests.right.right]
    exact hs

theorem spare_keeps :
    (unpaced V).Keeps (keyDiscipline V A) (Spare key) := by
  apply unpaced_keeps
  · intro e s s' _ _ henv hs
    rcases Machine.shadowed_env henv with ⟨hbase, hlog⟩
    have hconserves := (EnvAct.signals hbase).conserves key
    unfold Spare at hs ⊢
    rw [hlog]
    omega
  · intro s s' hrests hlog hs
    unfold Spare at hs ⊢
    rw [hrests.left key, hrests.right.left key, hlog]
    exact hs

/-- The lease is the holder's, as long as the actor task does nothing to it. -/
theorem holder_stable :
    (keyDiscipline V A).Stable (fun s => s.1.sched.lease = some key) := by
  intro e s s' _ _ henv hs
  rw [EnvAct.lease_exec (Machine.shadowed_env henv).left]
  exact hs

/-!
## Polls
-/

theorem pollWithTask_rests (scheduled : ScheduledFuture) :
    Keeps (keyDiscipline V A) (fun _ => True) (fun _ => True)
      (scheduled.pollWithTask key) :=
  rests_safe (pollWithTask_calm (unpaced_calm rfl) key scheduled)

theorem complete_rests :
    Keeps (keyDiscipline V A) (fun _ => True) (fun _ => True)
      (Queue.complete key) :=
  rests_safe (complete_calm (unpaced_calm rfl) key)

theorem takeReady_safe {K : World V × List Key -> Prop}
    (hstable : (keyDiscipline V A).Stable K)
    (hdemands : forall s, K s -> KeyDemands (.sched (.takeReady key)) s)
    (hs : K s) :
    wp (keyDiscipline V A) (sched (.takeReady key)) (fun _ _ => True)
      (fun _ => True) s := by
  apply wp.op hstable hs
  intro s _ hs
  exact ⟨hdemands s hs, fun _ _ _ _ _ _ => trivial⟩

theorem pollLeased_safe (turn : TurnContext)
    (hs : s.1.sched.lease = some key) :
    wp (keyDiscipline V A) (Queue.pollLeased turn key) (fun _ _ => True)
      (fun _ => True) s := by
  have hfind : wp (keyDiscipline V A) (sched (.find key))
      (fun _ s => s.1.sched.lease = some key) (fun _ => True) s := by
    apply wp.op holder_stable hs
    intro s _ hs
    refine ⟨trivial, ?_⟩
    intro input s' found _ hexec _
    have hbase := (Machine.shadowed_exec hexec).left
    rw [Op.lease_same (by rfl) (machine_exec hbase)]
    exact hs
  apply wp.seq hfind
  intro found s hs
  cases found with
  | none =>
      apply wp.seq (quiet_safe rfl s trivial)
      intro _ s _
      exact wp.pure trivial
  | some scheduled =>
      apply wp.seq (takeReady_safe holder_stable (fun _ => Or.inl) hs)
      intro ready s _
      cases ready with
      | false => exact wp.pure trivial
      | true =>
          apply wp.seq (pollWithTask_rests scheduled s trivial)
          intro ready s _
          apply wp.seq (quiet_safe rfl s trivial)
          intro held s _
          apply wp.seq (quiet_safe rfl s trivial)
          intro differs s _
          cases differs with
          | true => exact wp.pure trivial
          | false =>
              cases ready with
              | true =>
                  apply wp.seq (complete_rests s trivial)
                  intro _ s _
                  exact wp.pure trivial
              | false =>
                  by_cases hheld : held = some key
                  · simp only [if_pos hheld]
                    exact wp.pure trivial
                  · simp only [if_neg hheld]
                    exact wp.pure trivial

theorem popReady_pops :
    wp (keyDiscipline V A) (sched .popReady)
      (fun key s => forall popped, key = some popped -> Spare popped s)
      (fun _ => True) s := by
  apply wp.op Discipline.Stable.true trivial
  intro s hinv _
  refine ⟨trivial, ?_⟩
  intro input s' key _ hexec _ popped hpopped
  rcases s with ⟨w, log⟩
  rcases s' with ⟨w', log'⟩
  rcases Machine.shadowed_exec hexec with ⟨hbase, hlog⟩
  change log' = log at hlog
  subst hlog
  rcases Op.sched_result (machine_exec hbase) with ⟨hw', hkey⟩
  change w' = _ at hw'
  subst hw'
  apply popReady_spare hinv
  rw [← hpopped]
  exact hkey

theorem drain_safe (turn : TurnContext) :
    Keeps (keyDiscipline V A) (fun _ => True) (fun _ => True)
      (Queue.drain turn) := by
  apply Keeps.iter
  intro ⟨polled, completed⟩
  refine Keeps.ite ?_ (Keeps.done _)
  refine Keeps.bind (quiet_safe rfl) fun differs => ?_
  apply Keeps.ite (Keeps.done _)
  intro s _
  apply wp.seq popReady_pops
  intro popped s hspare
  cases popped with
  | none => exact wp.done trivial
  | some key =>
      have hfind : Keeps (keyDiscipline V A) (Spare key) (Spare key)
          (sched (.find key)) :=
        Within.keeps (Within.perform rfl (fun _ _ => trivial)) spare_keeps
      apply wp.seq (wp.mono (fun _ _ hs => hs) (fun _ _ => trivial)
        (hfind s (hspare key rfl)))
      intro found s hs
      cases found with
      | none => exact wp.again trivial
      | some scheduled =>
          apply wp.seq (takeReady_safe spare_keeps.stable (fun _ => Or.inr) hs)
          intro ready s _
          cases ready with
          | false => exact wp.again trivial
          | true =>
              apply wp.seq (pollWithTask_rests scheduled s trivial)
              intro ready s _
              cases ready with
              | true =>
                  apply wp.seq (complete_rests s trivial)
                  intro _ s _
                  exact wp.again trivial
              | false =>
                  apply wp.seq (quiet_safe rfl s trivial)
                  intro held s _
                  cases held with
                  | some holder => exact wp.done trivial
                  | none => exact wp.again trivial

theorem poll_safe (turn : TurnContext) :
    Keeps (keyDiscipline V A) (fun _ => True) (fun _ => True)
      (Queue.poll turn) := by
  intro s _
  have hheld : wp (keyDiscipline V A) (sched .held)
      (fun held s => s.1.sched.lease = held) (fun _ => True) s := by
    apply wp.op Discipline.Stable.true trivial
    intro s _ _
    refine ⟨trivial, ?_⟩
    intro input s' held _ hexec _
    have hbase := (Machine.shadowed_exec hexec).left
    rcases Op.sched_result (machine_exec hbase) with ⟨hw', hheld⟩
    rw [hw']
    exact hheld
  apply wp.seq hheld
  intro held s hs
  cases held with
  | some key => exact pollLeased_safe turn hs
  | none =>
      apply wp.seq (drain_safe turn s trivial)
      intro completed s _
      cases completed with
      | none => exact wp.pure trivial
      | some completed =>
          apply wp.seq (quiet_safe rfl s trivial)
          intro differs s _
          cases differs with
          | true => exact wp.pure trivial
          | false =>
              apply wp.seq (quiet_safe rfl s trivial)
              intro empty s _
              cases empty with
              | true => cases completed <;> exact wp.pure trivial
              | false =>
                  apply wp.seq (quiet_safe rfl s trivial)
                  intro _ s _
                  exact wp.pure trivial

/-!
## Dispatches
-/

theorem schedule_marks {build : Key -> P V ReplyFuture}
    (hbuild : forall key, (build key).Uses (unpaced V)) :
    Keeps (keyDiscipline V A) (fun _ => True) (fun _ => True)
      (Queue.schedule build) := by
  intro s _
  have hreserve : wp (keyDiscipline V A) (sched .reserve) Given
      (fun _ => True) s := by
    apply wp.op Discipline.Stable.true trivial
    intro s _ _
    refine ⟨trivial, ?_⟩
    intro input s' key _ hexec _
    have hbase := (Machine.shadowed_exec hexec).left
    rcases Op.sched_result (machine_exec hbase) with ⟨hw', hkey⟩
    show key < s'.1.sched.items.next
    rw [hw', ← hkey]
    exact Nat.lt_succ_self _
  apply wp.seq hreserve
  intro key s hs
  apply wp.seq (wp.mono (fun _ _ hs => hs) (fun _ _ => trivial)
    ((hbuild key).keeps given_keeps s hs))
  intro future s hs
  have hmark : wp (keyDiscipline V A) (sched (.markReady key))
      (fun _ _ => True) (fun _ => True) s := by
    apply wp.op given_keeps.stable hs
    intro s _ hs
    exact ⟨hs, fun _ _ _ _ _ _ => trivial⟩
  apply wp.seq hmark
  intro _ s _
  exact quiet_safe rfl s trivial

theorem scheduleReply_marks (reply : DispatchReply) :
    Keeps (keyDiscipline V A) (fun _ => True) (fun _ => True)
      (scheduleReply reply) := by
  refine schedule_marks fun key => ?_
  refine Within.bind (callUser_uses (unpaced_has rfl rfl)).attempt fun r _ => ?_
  cases r with
  | some _ => trivial
  | none =>
      exact Within.seq (dropReply_uses (unpaced_has rfl rfl) reply)
        (fun _ => Within.throw)

theorem dispatchStream_marks (reply : DispatchReply) :
    Keeps (keyDiscipline V A) (fun _ => True) (fun _ => True)
      (StreamKind.dispatch reply) := by
  refine Keeps.bind (rests_safe (completeReply_uses (unpaced_has rfl rfl) reply
    none)) fun _ => ?_
  refine schedule_marks fun key => ?_
  exact Within.seq (callUser_uses (unpaced_has rfl rfl))
    (fun _ => Within.pure trivial)

theorem parts_rest {parts : List Part}
    (hplaces : parts.contains .places = false)
    (htakes : parts.contains .takes = false) :
    (repertoire V parts).Keeps (keyDiscipline V A) (fun _ => True) where
  stable := Discipline.Stable.true
  op := fun op hop => anything_keeps.op op (unpaced_has hplaces htakes op hop)

theorem key_dispatching :
    Dispatching (V := V) (keyDiscipline V A) (fun _ => True) (fun _ => True)
      (fun _ => True) where
  falls := fun _ _ => trivial
  settles := fun _ _ => trivial
  decides := parts_rest rfl rfl
  single := scheduleReply_marks
  stream := dispatchStream_marks

theorem key_turning :
    Turning (V := V) A (keyDiscipline V A) (fun _ => True) (fun _ => True) :=
  Turning.ofDispatch (fun _ _ => trivial) (parts_rest rfl rfl) (quiet_safe rfl)
    poll_safe (fun envelope _ hs => key_dispatching.dispatch envelope hs)

theorem key_safe {c : Config (Op V) (World V × List Key) Unit}
    (h : Machine.Reaches (overtaking V A) Machine.Anything
      ((initial V A).shadowing []) c) :
    Safe (keyDiscipline V A) (fun _ _ => True) (fun _ => True) c := by
  have hspine : Spine A (keyDiscipline V A) (fun _ => True) (fun _ => True)
      (fun _ => True) (fun _ => True) (fun _ => True) (fun _ _ => True) :=
    spine_of_steady key_turning (parts_rest rfl rfl) (parts_rest rfl rfl)
  have hstart : Accounted (World.new V, []) :=
    ⟨fun _ => Nat.zero_le _, fun _ _ => rfl⟩
  apply hspine.safe key_lawful (fun _ _ => rfl) (fun _ _ => trivial) hstart
    trivial
  apply h.weaken
  intro c event _
  exact Discipline.permits_all (fun _ _ _ => trivial) (fun _ _ => trivial)
    c event

end Loac

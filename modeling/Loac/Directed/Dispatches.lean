import Loac.Directed.Polls

/-!
# Dispatches

A reply is built under a key that wakes know before the reply is in the queue.
Where it is marked, its first poll is booked: its flag is set, and its key is
queued.
-/

namespace Loac

open Interleave Interleave.Prog

variable {V α β γ : Type} {A : ActorConfig} {w w' : World V} {key : Key}
  {seen : ReplyLane -> Prop} {X : World V -> Prop}

/-!
## A reply that is not there yet
-/

structure Hatching (key : Key) (sched : Sched) : Prop where
  absent : sched.isLive key = false
  unmarked : (sched.wakes key).marks = 0
  unpolled : sched.polls key = 0
  queued : sched.flag key = true -> key ∈ sched.ready ∨ sched.Pushing key

structure Hatched (key : Key) (sched : Sched) : Prop where
  absent : sched.isLive key = false
  flag : sched.flag key = true
  unpushed : ¬ sched.Pushing key
  queued : key ∈ sched.ready

theorem Hatching.env {e : EnvAct} (h : Hatching key w.sched)
    (hexec : e.exec A w = some w') : Hatching key w'.sched := by
  have htold := EnvAct.told hexec key
  refine ⟨htold.live.trans h.absent, htold.marks.trans h.unmarked,
    htold.polls.trans h.unpolled, fun hset => ?_⟩
  rcases htold.raised hset with hbefore | hpushing
  · exact (h.queued hbefore).elim (fun hqueued => Or.inl (htold.ready hqueued))
      htold.queued
  · exact Or.inr hpushing

theorem Hatched.env {e : EnvAct} (h : Hatched key w.sched)
    (hexec : e.exec A w = some w') : Hatched key w'.sched := by
  have htold := EnvAct.told hexec key
  exact ⟨htold.live.trans h.absent, htold.flag h.flag,
    fun hnow => h.unpushed (htold.pushing h.flag hnow), htold.ready h.queued⟩

theorem Hatching.exec {op : Op V α} {input : Input V} {a : α}
    (h : Hatching key w.sched) (henters : op.enters = false)
    (hkeys : op.rekeys = false) (hplaces : op.places = false)
    (hexec : op.exec A input w = some (w', a)) : Hatching key w'.sched := by
  have hsame := Op.same_exec henters hexec
  refine ⟨?_, (hsame.wakes key).right.right.right.trans h.unmarked,
    (hsame.books.polls key).trans h.unpolled, fun hset => ?_⟩
  · cases hlive : w'.sched.isLive key with
    | false => rfl
    | true =>
        have hbefore := Op.live_exec hplaces hexec key hlive
        rw [h.absent] at hbefore
        cases hbefore
  · rw [hsame.books.flag] at hset
    rw [Op.keys_exec hkeys hexec, hsame.pushing]
    exact h.queued hset

theorem Hatching.reserve (w : World V) :
    Hatching w.sched.items.next (SchedOp.reserve.exec w.sched).1 := by
  have hwakes : (SchedOp.reserve.exec w.sched).1.wakes w.sched.items.next =
      .new := by
    show (w.sched.setWake _ _).wakes _ = _
    rw [Sched.wakes_setWake, if_pos rfl]
  refine ⟨?_, congrArg ReplyWake.marks hwakes,
    congrArg ReplyWake.polls hwakes, fun hset => ?_⟩
  · show (w.sched.items.reserve.get? w.sched.items.next).isSome = false
    rw [Slots.get?_reserve, Slots.get?_of_next_le (Nat.le_refl _)]
    rfl
  · unfold Sched.flag at hset
    rw [hwakes] at hset
    cases hset

/-- Where all wakes have queued their keys, the mark books the first poll. -/
theorem Hatching.markReady {sched : Sched} (h : Hatching key sched)
    (hpushing : ¬ sched.Pushing key) : Hatched key (sched.markReady key) := by
  unfold Sched.markReady
  by_cases hflag : (sched.wakes key).ready = true
  · rw [if_pos hflag]
    exact ⟨h.absent, hflag, hpushing, (h.queued hflag).resolve_right hpushing⟩
  · rw [if_neg hflag]
    refine ⟨h.absent, ?_, hpushing, ?_⟩
    · show ((sched.setWake key _).wakes key).ready = true
      rw [Sched.wakes_setWake, if_pos rfl]
    · exact List.mem_append_right _ (List.mem_singleton_self key)

theorem Booked.markReady {sched : Sched} (h : Booked none sched)
    (habsent : sched.isLive key = false) :
    Booked none (sched.markReady key) := by
  unfold Sched.markReady
  by_cases hflag : (sched.wakes key).ready = true
  · rw [if_pos hflag]
    exact h
  · rw [if_neg hflag]
    have hwakes : forall {other}, sched.isLive other = true ->
        (sched.setWake key { sched.wakes key with
          ready := true, marks := (sched.wakes key).marks + 1 }).wakes other =
          sched.wakes other := by
      intro other hlive
      rw [Sched.wakes_setWake, if_neg]
      intro heq
      rw [heq, habsent] at hlive
      cases hlive
    constructor
    · intro other hlive hdue
      change sched.isLive other = true at hlive
      unfold Sched.Owed Sched.polls at hdue
      unfold Sched.flag
      dsimp only at hdue ⊢
      rw [hwakes hlive] at hdue ⊢
      exact h.filed other hlive hdue
    · intro other hlive hset
      change sched.isLive other = true at hlive
      unfold Sched.flag at hset
      dsimp only at hset
      rw [hwakes hlive] at hset
      exact (h.queued other hlive hset).imp_right
        (Or.imp_left (List.mem_append_left _))

theorem Booked.place {sched : Sched} {future : ReplyFuture}
    (h : Booked none sched) (hhatched : Hatched key sched) :
    Booked none ((SchedOp.place key future).exec sched).1 := by
  have hlive : forall {other},
      ((SchedOp.place key future).exec sched).1.isLive other = true ->
        other = key ∨ sched.isLive other = true := by
    intro other halive
    rcases Option.isSome_iff_exists.mp halive with ⟨scheduled, hget⟩
    cases Slots.get?_place_some hget with
    | inl hbefore =>
        right
        exact Option.isSome_iff_exists.mpr ⟨scheduled, hbefore⟩
    | inr hplaced => exact Or.inl hplaced.left
  constructor
  · intro other halive hdue
    rcases hlive halive with heq | hbefore
    · rw [heq]
      exact ⟨hhatched.flag, hhatched.unpushed⟩
    · exact h.filed other hbefore hdue
  · intro other halive hset
    rcases hlive halive with heq | hbefore
    · rw [heq]
      exact Or.inr (Or.inl hhatched.queued)
    · exact h.queued other hbefore hset

/-!
## Scheduling
-/

def hatching (V : Type) (seen : ReplyLane -> Prop) : Vocabulary (Op V) where
  uses := fun op =>
    Spares seen op ∧ op.rekeys = false ∧ op.enters = false
  gives := fun _ _ => True

theorem hatching_has :
    Has (hatching V seen) (.constructs :: .drops :: answerParts) := by
  intro α op hop
  cases op with
  | sched op => cases op <;> first
      | exact ⟨⟨rfl, rfl, fun _ => rfl, fun _ => rfl⟩, rfl, rfl⟩
      | cases hop
  | mail op => cases op <;> first
      | exact ⟨⟨rfl, rfl, fun _ => rfl, fun _ => rfl⟩, rfl, rfl⟩
      | cases hop
  | kin op => cases op <;> first
      | exact ⟨⟨rfl, rfl, fun _ => rfl, fun _ => rfl⟩, rfl, rfl⟩
      | cases hop
  | suspend site => cases site <;> cases hop
  | _ => exact ⟨⟨rfl, rfl, fun _ => rfl, fun _ => rfl⟩, rfl, rfl⟩

theorem hatching_known : (hatching V seen).Keeps (directed V A)
    (Known A none seen) where
  stable := Known.stable
  op := by
    intro β op hop w hledger hw
    rcases hop with ⟨hspares, hkeys, _⟩
    refine ⟨directed_demands (Op.awake_of_suspends hspares.suspends) hkeys, ?_⟩
    intro input w' b _ hexec _
    exact ⟨hw.exec hledger hspares hkeys (machine_exec hexec), trivial⟩

theorem hatching_keeps : (hatching V seen).Keeps (directed V A)
    (fun w => Known A none seen w ∧ Hatching key w.sched) where
  stable := Known.stable.and fun _ _ _ _ _ hexec h => h.env hexec
  op := by
    intro β op hop w hledger hw
    rcases hop with ⟨hspares, hkeys, henters⟩
    refine ⟨directed_demands (Op.awake_of_suspends hspares.suspends) hkeys, ?_⟩
    intro input w' b _ hexec _
    have hexec := machine_exec hexec
    exact ⟨⟨hw.left.exec hledger hspares hkeys hexec,
      hw.right.exec henters hkeys hspares.places hexec⟩, trivial⟩

theorem schedule_known {build : Key -> P V ReplyFuture}
    (hseen : ¬ seen .reply)
    (hbuild : forall key, (build key).Uses (hatching V seen)) :
    Keeps (directed V A) (Known A none seen) (fun _ => True)
      (Queue.schedule build) := by
  intro w hw
  apply wp.bind
  apply wp.op Known.stable hw
  intro w hledger hw
  refine ⟨trivial, ?_⟩
  intro input w' key _ hexec _
  have hexec := machine_exec hexec
  have hnow : Known A none seen w' ∧ Hatching key w'.sched := by
    refine ⟨hw.exec hledger ⟨rfl, rfl, fun _ => rfl, fun _ => rfl⟩ rfl hexec, ?_⟩
    rcases Op.sched_result hexec with ⟨hworld, hkey⟩
    rw [hworld, ← hkey]
    exact .reserve w
  apply wp.seq (((hbuild key).keeps hatching_keeps).conseq
    (fun _ _ => trivial) w' hnow)
  intro future w hw
  apply wp.seq (R := fun _ w => Known A none seen w ∧ Hatched key w.sched)
  · apply wp.op hatching_keeps.stable hw
    intro w hledger hw
    refine ⟨hw.right.unmarked, ?_⟩
    intro input w' _ hadmits hexec _
    have hexec := machine_exec hexec
    have hworld := (Op.sched_result hexec).left
    refine ⟨⟨?_, fun hlane => ?_, fun hlane => absurd hlane hseen,
      fun hlane => ?_⟩, ?_⟩
    · rw [hworld]
      exact hw.left.booked.markReady hw.right.absent
    · exact (hw.left.inbox hlane).exec rfl rfl hexec
    · exact (hw.left.exits hlane).exec rfl rfl hexec
    · rw [hworld]
      exact hw.right.markReady hadmits
  · intro _ w hw
    have hstable : (directed V A).Stable (fun w =>
        Known A none seen w ∧ Hatched key w.sched) :=
      Known.stable.and fun _ _ _ _ _ hexec h => h.env hexec
    apply wp.op hstable hw
    intro w hledger hw
    refine ⟨trivial, ?_⟩
    intro input w' _ _ hexec _
    have hexec := machine_exec hexec
    refine ⟨?_, fun hlane => ?_, fun hlane => absurd hlane hseen,
      fun hlane => ?_⟩
    · rw [(Op.sched_result hexec).left]
      exact hw.left.booked.place hw.right
    · exact (hw.left.inbox hlane).exec rfl rfl hexec
    · exact (hw.left.exits hlane).exec rfl rfl hexec

/-- Deciding against a dispatch leaves what was seen of the other lanes. -/
theorem decision_keeps (hinbox : ¬ seen .mailbox) :
    (repertoire V decisionParts).Keeps (directed V A) (Known A none seen) where
  stable := Known.stable
  op := by
    intro β op hop w hledger hw
    have hspares : Spares seen op ∧ op.rekeys = false := by
      cases op with
      | sched op => cases op <;> first
          | exact ⟨⟨rfl, rfl, fun _ => rfl, fun _ => rfl⟩, rfl⟩
          | cases hop
      | mail op => cases op <;> first
          | exact ⟨⟨rfl, rfl, fun _ => rfl, fun _ => rfl⟩, rfl⟩
          | exact ⟨⟨rfl, rfl, fun hlane => absurd hlane hinbox,
              fun _ => rfl⟩, rfl⟩
      | kin op => cases op <;> first
          | exact ⟨⟨rfl, rfl, fun _ => rfl, fun _ => rfl⟩, rfl⟩
          | cases hop
      | suspend site => cases site <;> cases hop
      | _ => exact ⟨⟨rfl, rfl, fun _ => rfl, fun _ => rfl⟩, rfl⟩
    refine ⟨directed_demands (Op.awake_of_suspends hspares.left.suspends)
      hspares.right, ?_⟩
    intro input w' b _ hexec _
    exact ⟨hw.exec hledger hspares.left hspares.right (machine_exec hexec),
      trivial⟩

theorem dispatch_known (hinbox : ¬ seen .mailbox) (hseen : ¬ seen .reply)
    (envelope : Envelope) :
    Keeps (directed V A) (Known A none seen) (fun _ => True)
      (envelope.dispatch : P V Unit) := by
  have hconstruct : forall key, (callUser (.construct key) : P V Unit).Uses
      (hatching V seen) := fun key => callUser_uses (hatching_has.mono rfl)
  have hdispatching : Dispatching (V := V) (directed V A) (Known A none seen)
      (Known A none seen) (fun _ => True) := {
    falls := fun _ _ => trivial
    settles := fun _ hw => hw
    decides := decision_keeps hinbox
    single := by
      intro reply
      apply schedule_known hseen
      intro key
      refine Within.bind (hconstruct key).attempt fun built _ => ?_
      cases built with
      | some _ => trivial
      | none =>
          exact Within.seq (dropReply_uses (hatching_has.mono rfl) reply)
            (fun _ => trivial)
    stream := by
      intro reply
      have hpays : (reply.complete none : P V Unit).Uses (hatching V seen) :=
        completeReply_uses (hatching_has.mono rfl) reply none
      refine Keeps.bind ((hpays.keeps hatching_known).conseq
        (fun _ _ => trivial)) fun _ => ?_
      apply schedule_known hseen
      intro key
      exact Within.seq (hconstruct key) (fun _ => trivial) }
  intro w hw
  exact hdispatching.dispatch envelope hw

end Loac

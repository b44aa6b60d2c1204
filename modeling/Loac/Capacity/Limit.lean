import Loac.Containment.Works
import Loac.Scheduling.Effects

/-!
# The limit of active replies

The mailbox lane tests the capacity before it takes an envelope out, and the
reply is inserted only after the decision to dispatch it.  No user code that
runs in between can reach the lease or the queue of replies, so the capacity
that was found is still there when the reply is scheduled.
-/

namespace Loac

open Interleave Interleave.Prog

variable {V α : Type} {A : ActorConfig} {w w' : World V} {key : Key}

/-- The queue holds no more replies than the limit allows. -/
def Bounded (A : ActorConfig) (w : World V) : Prop :=
  forall n, A.limit = some n -> w.sched.items.length <= n

def HasRoom (A : ActorConfig) (w : World V) : Prop :=
  hasCapacity A w.sched.items.length = true

def HasDispatchCapacity (A : ActorConfig) (w : World V) : Prop :=
  w.sched.lease = none ∧ HasRoom A w

/-- Scheduling asserts its capacity, and the reply is placed while it lasts. -/
def CapacityDemands (A : ActorConfig) : {α : Type} -> Op V α ->
    World V -> Prop
  | _, .sched .reserve, w => HasDispatchCapacity A w
  | _, .sched (.place _ _), w => HasRoom A w
  | _, _, _ => True

def capacityDiscipline (V : Type) (A : ActorConfig) :
    Discipline (machine V A) where
  inv := Bounded A
  admits := fun _ _ _ => True
  tolerates := fun _ _ => True
  demands := CapacityDemands A

/-!
## What operations do to the number of replies
-/

theorem length_place_le (slots : Slots ScheduledFuture) (key : Key)
    (scheduled : ScheduledFuture) :
    (slots.place key scheduled).length <= slots.length + 1 := by
  unfold Slots.place
  split
  · exact Nat.le_refl _
  · exact Nat.le_succ _

theorem length_remove_le (slots : Slots ScheduledFuture) (key : Key) :
    (slots.remove key).length <= slots.length :=
  List.length_filter_le ..

theorem SchedOp.length_exec {op : SchedOp α}
    (hop : (Op.sched op : Op V α).places = false) (sched : Sched) :
    (op.exec sched).1.items.length <= sched.items.length := by
  cases hhandles : op.handles with
  | false => exact Nat.le_of_eq (by rw [SchedOp.items_same hhandles])
  | true =>
      cases op with
      | place key future => cases hop
      | reserve => exact Nat.le_refl _
      | remove key => exact length_remove_le ..
      | drain =>
          show sched.drain.1.items.length <= _
          unfold Sched.drain
          split
          · exact Nat.le_refl _
          · exact length_remove_le ..
      | takeReply key =>
          show (sched.takeReply key).1.items.length <= _
          unfold Sched.takeReply
          split
          · exact Nat.le_of_eq (Slots.length_modify ..)
          · exact Nat.le_refl _
      | takeFinal key =>
          show (sched.takeFinal key).1.items.length <= _
          unfold Sched.takeFinal
          split
          · exact Nat.le_of_eq (Slots.length_modify ..)
          · exact Nat.le_refl _
      | _ => cases hhandles

theorem Op.length_exec {op : Op V α} {input : Input V} {a : α}
    (hop : op.places = false) (h : op.exec A input w = some (w', a)) :
    w'.sched.items.length <= w.sched.items.length := by
  cases hhandles : op.handles with
  | false => exact Nat.le_of_eq (by rw [Op.items_same hhandles h])
  | true =>
      cases op with
      | sched op =>
          rw [(Op.sched_result h).left]
          exact SchedOp.length_exec hop w.sched
      | user site =>
          have hschedules := Op.user_schedules h
          revert hschedules
          generalize w'.sched = sched'
          intro hschedules
          cases hschedules with
          | nothing step _ => exact Nat.le_refl _
          | acquired key _ => exact Nat.le_refl _
          | released key _ => exact Nat.le_refl _
          | returned key value _ => exact Nat.le_of_eq (Slots.length_modify ..)
      | _ => cases hhandles

theorem Bounded.place {future : ReplyFuture} (hroom : HasRoom A w) :
    Bounded A { w with sched :=
      ((SchedOp.place key future).exec w.sched).1 } := by
  intro n hn
  have hlt : w.sched.items.length < n := by
    unfold HasRoom hasCapacity at hroom
    rw [hn] at hroom
    exact of_decide_eq_true hroom
  exact Nat.le_trans (length_place_le ..) hlt

theorem capacity_lawful : (capacityDiscipline V A).Lawful where
  actor := by
    intro α op input w w' a hinv hdemands _ hexec
    cases hplaces : op.places with
    | false =>
        exact fun n hn => Nat.le_trans (Op.length_exec hplaces (machine_exec hexec)) (hinv n hn)
    | true =>
        cases op with
        | sched op =>
            cases op with
            | place key future =>
                rw [(Op.sched_result (machine_exec hexec)).left]
                exact Bounded.place hdemands
            | _ => cases hplaces
        | _ => cases hplaces
  env := by
    intro e w w' hinv _ henv n hn
    rw [EnvAct.items_exec henv]
    exact hinv n hn

/-!
## What is known before a dispatch
-/

theorem room_stable : (capacityDiscipline V A).Stable (HasRoom A) := by
  intro e w w' _ _ henv hw
  unfold HasRoom at hw ⊢
  rw [EnvAct.items_exec henv]
  exact hw

theorem capacity_stable :
    (capacityDiscipline V A).Stable (HasDispatchCapacity A) := by
  intro e w w' hinv htolerates henv hw
  refine ⟨?_, room_stable e w w' hinv htolerates henv hw.right⟩
  rw [EnvAct.lease_exec henv]
  exact hw.left

theorem capacity_demands {op : Op V α} (hop : op.part ≠ .places) (w : World V) :
    CapacityDemands A op w := by
  cases op with
  | sched op => cases op <;> trivial
  | _ => trivial

theorem parts_keep {parts : List Part}
    (hparts : parts.contains .places = false) :
    (repertoire V parts).Keeps (capacityDiscipline V A) (fun _ => True) where
  stable := Discipline.Stable.true
  op := by
    intro β op hop w _ _
    refine ⟨capacity_demands ?_ w, fun _ _ _ _ _ _ => ⟨trivial, trivial⟩⟩
    intro hpart
    change parts.contains op.part = true at hop
    rw [hpart, hparts] at hop
    cases hop

theorem parts_safe (parts : List Part) {p : P V α}
    (hparts : parts.contains .places = false)
    (hp : p.Uses (repertoire V parts)) :
    Keeps (capacityDiscipline V A) (fun _ => True) (fun _ => True) p :=
  hp.keeps (parts_keep hparts)

/-- Deciding about an envelope touches neither the replies nor the lease. -/
theorem Op.decides_same {op : Op V α}
    (hop : decisionParts.contains op.part = true) :
    op.handles = false ∧ op.leases = false ∧ op.part ≠ .places := by
  cases op with
  | user site => cases site <;> first
      | (cases hop; done)
      | exact ⟨rfl, rfl, by intro h; cases h⟩
  | sched op => cases op <;> first
      | (cases hop; done)
      | exact ⟨rfl, rfl, by intro h; cases h⟩
  | _ =>
      refine ⟨rfl, rfl, ?_⟩
      intro hpart
      rw [hpart] at hop
      cases hop

theorem capacity_decides :
    (repertoire V decisionParts).Keeps (capacityDiscipline V A)
      (HasDispatchCapacity A) where
  stable := capacity_stable
  op := by
    intro β op hop w _ hw
    rcases Op.decides_same hop with ⟨hhandles, hleases, hpart⟩
    refine ⟨capacity_demands hpart w, ?_⟩
    intro input w' b _ hexec _
    refine ⟨⟨?_, ?_⟩, trivial⟩
    · rw [Op.lease_same hleases (machine_exec hexec)]
      exact hw.left
    · unfold HasRoom
      rw [Op.items_same hhandles (machine_exec hexec)]
      exact hw.right

/-!
## Scheduling
-/

theorem construct_room (key : Key) :
    Keeps (capacityDiscipline V A) (HasRoom A) (HasRoom A)
      (callUser (.construct key)) := by
  have hstep : Keeps (capacityDiscipline V A) (HasRoom A) (HasRoom A)
      (perform (.user (.construct key))) := by
    intro w hw
    apply wp.op room_stable hw
    intro w _ hw
    refine ⟨trivial, ?_⟩
    intro input w' step _ hexec _
    unfold HasRoom
    rw [Op.items_same (by rfl) (machine_exec hexec)]
    exact hw
  refine Keeps.bind (Keeps.iter fun _ => Keeps.bind hstep fun step => ?_)
    (fun _ => Keeps.pure ())
  cases step with
  | continues => exact Keeps.again _
  | returns value => exact Keeps.done _
  | panics => exact Keeps.throw (fun _ h => h)

theorem schedule_safe {build : Key -> P V ReplyFuture}
    (hbuild : forall key w, HasRoom A w ->
      wp (capacityDiscipline V A) (build key) (fun _ => HasRoom A)
        (fun _ => True) w)
    (hw : HasDispatchCapacity A w) :
    wp (capacityDiscipline V A) (Queue.schedule build) (fun _ _ => True)
      (fun _ => True) w := by
  have hreserve : wp (capacityDiscipline V A) (sched .reserve)
      (fun _ => HasRoom A) (fun _ => True) w := by
    apply wp.op capacity_stable hw
    intro w _ hw
    refine ⟨hw, ?_⟩
    intro input w' key _ hexec _
    rw [(Op.sched_result (machine_exec hexec)).left]
    exact hw.right
  apply wp.seq hreserve
  intro key w hw
  apply wp.seq (hbuild key w hw)
  intro future w hw
  have hmark : wp (capacityDiscipline V A) (sched (.markReady key))
      (fun _ => HasRoom A) (fun _ => True) w := by
    apply wp.op room_stable hw
    intro w _ hw
    refine ⟨trivial, ?_⟩
    intro input w' _ _ hexec _
    unfold HasRoom
    rw [Op.items_same (by rfl) (machine_exec hexec)]
    exact hw
  apply wp.seq hmark
  intro _ w hw
  apply wp.op room_stable hw
  intro w _ hw
  exact ⟨hw, fun _ _ _ _ _ _ => trivial⟩

theorem capacity_dispatching :
    Dispatching (V := V) (capacityDiscipline V A) (HasDispatchCapacity A)
      (fun _ => True) (fun _ => True) where
  falls := fun _ _ => trivial
  settles := fun _ _ => trivial
  decides := capacity_decides
  single := by
    intro reply w hw
    apply schedule_safe _ hw
    intro key w hw
    apply wp.bind
    apply wp.attempt
    apply wp.mono _ _ (construct_room key w hw)
    · intro _ w hw
      exact wp.pure hw
    · intro w _
      apply wp.seq (parts_safe answerParts rfl
        (dropReply_uses repertoire_has reply) w trivial)
      intro _ w _
      trivial
  stream := by
    intro reply w hw
    have hpay : (reply.complete none : P V Unit).Uses
        (repertoire V decisionParts) :=
      completeReply_uses (repertoire_has.mono rfl) reply none
    apply wp.seq (wp.mono (fun _ _ hw => hw) (fun _ _ => trivial)
      (hpay.keeps capacity_decides w hw))
    intro _ w hw
    apply schedule_safe _ hw
    intro key w hw
    apply wp.seq (wp.mono (fun _ _ hw => hw) (fun _ _ => trivial)
      (construct_room key w hw))
    intro _ w hw
    exact wp.pure hw

/-!
## The mailbox lane
-/

theorem hasDispatchCapacity_found :
    wp (capacityDiscipline V A) (hasDispatchCapacity A)
      (fun capacity w => capacity = true -> HasDispatchCapacity A w)
      (fun _ => True) w := by
  have hleased : wp (capacityDiscipline V A) Queue.isLeased
      (fun leased w => leased = false -> w.sched.lease = none)
      (fun _ => True) w := by
    have hheld : wp (capacityDiscipline V A) (sched .held)
        (fun held w => w.sched.lease = held) (fun _ => True) w := by
      apply wp.op Discipline.Stable.true trivial
      intro w _ _
      refine ⟨trivial, ?_⟩
      intro input w' held _ hexec _
      rcases Op.sched_result (machine_exec hexec) with ⟨hw', hheld⟩
      rw [hw']
      exact hheld
    apply wp.seq hheld
    intro held w hw
    apply wp.pure
    intro hleased
    rw [hw]
    exact Option.isNone_iff_eq_none.mp (by simpa using hleased)
  apply wp.seq hleased
  intro leased w hw
  have hlength : wp (capacityDiscipline V A) (sched .length)
      (fun active w => (leased = false -> w.sched.lease = none) ∧
        w.sched.items.length = active) (fun _ => True) w := by
    have hstable : (capacityDiscipline V A).Stable
        (fun w => leased = false -> w.sched.lease = none) := by
      intro e w w' _ _ henv hw
      rw [EnvAct.lease_exec henv]
      exact hw
    apply wp.op hstable hw
    intro w _ hw
    refine ⟨trivial, ?_⟩
    intro input w' active _ hexec _
    rcases Op.sched_result (machine_exec hexec) with ⟨hw', hactive⟩
    rw [hw']
    exact ⟨hw, hactive⟩
  apply wp.seq hlength
  intro active w hw
  apply wp.pure
  intro hcapacity
  rw [Bool.and_eq_true, Bool.not_eq_true'] at hcapacity
  refine ⟨hw.left hcapacity.left, ?_⟩
  unfold HasRoom
  rw [hw.right]
  exact hcapacity.right

theorem mailboxLane_safe (turn : TurnContext) (start : ReplyLane)
    (hw : HasDispatchCapacity A w) :
    wp (capacityDiscipline V A) (mailboxLane A turn start) (fun _ _ => True)
      (fun _ => True) w := by
  apply wp.rounds (fun _ => HasDispatchCapacity A) hw
  intro dispatched w hw
  have hreceive : Keeps (capacityDiscipline V A) (HasDispatchCapacity A)
      (fun _ => True) (perform (.mail (.pollRecv turn))) :=
    capacity_decides.perform _ (by rfl)
  apply wp.seq (hreceive w hw)
  intro received w hw
  cases received with
  | envelope envelope =>
      apply wp.seq (capacity_dispatching.dispatch envelope hw)
      intro _ w _
      apply wp.seq (parts_safe [.looks] rfl
        (repertoire_has.perform rfl) w trivial)
      intro differs w _
      cases differs with
      | true =>
          apply wp.seq (parts_safe [.looks] rfl
            (repertoire_has.perform rfl) w trivial)
          intro _ w _
          exact wp.done trivial
      | false =>
          by_cases hbudget : dispatched + 1 = A.mailboxDispatchBudget
          · simp only [if_pos hbudget]
            exact wp.done trivial
          · simp only [if_neg hbudget]
            apply wp.seq hasDispatchCapacity_found
            intro capacity w hw
            cases capacity with
            | true => exact wp.again (hw rfl)
            | false => exact wp.done trivial
  | closed => exact wp.done trivial
  | pending =>
      by_cases hstart : dispatched > 0 ∧ start = .reply
      · simp only [if_pos hstart]
        apply wp.seq (parts_safe [.looks] rfl
          (hasReplies_uses repertoire_has) w trivial)
        intro replies w _
        cases replies <;> exact wp.done trivial
      · simp only [if_neg hstart]
        exact wp.done trivial

theorem capacity_turning :
    Turning (V := V) A (capacityDiscipline V A) (fun _ => True)
      (fun _ => True) where
  falls := fun _ _ => trivial
  lanes := parts_keep rfl
  unwound := parts_safe laneParts rfl (repertoire_has.perform rfl)
  poll := fun turn => parts_safe replyParts rfl
    (pollQueue_uses repertoire_has turn)
  mailbox := by
    intro turn start w _
    apply wp.seq hasDispatchCapacity_found
    intro capacity w hw
    by_cases hreceive : (turn.receiveMessages && capacity) = true
    · simp only [if_pos hreceive]
      rw [Bool.and_eq_true] at hreceive
      exact mailboxLane_safe turn start (hw hreceive.right)
    · simp only [if_neg hreceive]
      exact wp.pure trivial

theorem capacity_safe {c : ActorState V} (h : Reachable A c) :
    Safe (capacityDiscipline V A) (fun _ _ => True) (fun _ => True) c := by
  have hspine : Spine A (capacityDiscipline V A) (fun _ => True) (fun _ => True)
      (fun _ => True) (fun _ => True) (fun _ => True) (fun _ _ => True) :=
    spine_of_steady capacity_turning (parts_keep rfl) (parts_keep rfl)
  have hbounded : Bounded A (World.new V) := fun n _ => Nat.zero_le n
  apply hspine.safe capacity_lawful (fun _ _ => rfl) (fun _ _ => trivial)
    hbounded trivial
  apply h.weaken
  intro c event _
  exact Discipline.permits_all (fun _ _ _ => trivial) (fun _ _ => trivial)
    c event

end Loac

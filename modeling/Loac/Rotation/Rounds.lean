import Loac.Bypass.Bound
import Loac.Interleave.Scripts
import Loac.Rotation.Drains

/-!
# Fair drains

A reply that is due when the first of several drains begins is polled before
any other reply is polled twice, unless keys that earlier leased polls left over
are queued ahead of it.
-/

namespace Loac

open Interleave Interleave.Prog

variable {V α : Type} {A : ActorConfig} {turn : TurnContext}
  {w w' w₀ : World V} {goal key : Key} {total : Nat}

/-!
## Dispatches in between
-/

section Dispatch

theorem Slots.get?_place_ne {β : Type} (slots : Slots β) {key other : Nat}
    (b : β) (hne : other ≠ key) :
    (slots.place key b).get? other = slots.get? other := by
  unfold Slots.place
  split
  · show List.lookup other ((key, b) :: slots.entries) = _
    rw [List.lookup_cons, beq_false_of_ne hne]
    rfl
  · rfl

theorem place_trails {bound : Nat} {future : ReplyFuture} {sched : Sched}
    (hkey : bound <= key) :
    sched.Trails bound ((SchedOp.place key future).exec sched).1 := by
  refine .of_items rfl rfl ?_ (Slots.next_place ..)
  intro other hother
  show ((sched.items.place key _).get? other).isSome = _
  rw [Slots.get?_place_ne]
  · rfl
  · intro heq
    subst heq
    exact absurd hkey (Nat.not_le_of_lt hother)

variable (hgoal : goal < w₀.sched.items.next)

include hgoal

theorem trailing_safe {p : P V α} (hp : p.Uses (trailing V)) :
    Keeps (rotation V A turn w₀ goal) (Approaching w₀ goal total)
      (fun _ => True) p :=
  (hp.keeps (approaching_keeps hgoal)).conseq (fun _ _ => trivial)

theorem schedule_rotates {build : Key -> P V ReplyFuture}
    (hbuild : forall key, (build key).Uses (trailing V)) :
    Keeps (rotation V A turn w₀ goal) (Approaching w₀ goal total)
      (fun _ => True) (Queue.schedule build) := by
  intro w hw
  have hkeeps : (trailing V).Keeps (rotation V A turn w₀ goal)
      (Approaching w₀ goal total) := approaching_keeps hgoal
  have hreserve : wp (rotation V A turn w₀ goal) (sched .reserve)
      (fun key w => w₀.sched.items.next <= key ∧ Approaching w₀ goal total w)
      (fun _ => True) w := by
    apply wp.op hkeeps.stable hw
    intro w hinv hw
    have hkept := hkeeps.op (.sched .reserve) rfl w hinv hw
    refine ⟨hkept.left, ?_⟩
    intro input w' key hadmits hexec hinv'
    refine ⟨?_, (hkept.right input w' key hadmits hexec hinv').left⟩
    cases hexec
    exact hinv.next
  apply wp.seq hreserve
  intro key w ⟨hkey, hw⟩
  apply wp.seq (trailing_safe hgoal (hbuild key) w hw)
  intro future w hw
  apply wp.seq (hkeeps.perform (.sched (.markReady key)) rfl w hw)
  intro _ w hw
  apply wp.op hkeeps.stable hw
  intro w _ hw
  refine ⟨trivial, ?_⟩
  intro input w' _ _ hexec _
  have hexec : (Op.sched (SchedOp.place key future)).exec A input w =
    some (w', ()) := hexec
  rw [(Op.sched_result hexec).left]
  exact hw.trails hgoal (place_trails hkey)

omit hgoal in
theorem trailing_has {parts : List Part}
    (hplaces : parts.contains .places = false)
    (hremoves : parts.contains .removes = false)
    (htakes : parts.contains .takes = false) : Has (trailing V) parts := by
  intro α op hop
  cases hsteers : op.steers with
  | false => exact trailing_calm hplaces hremoves op hop hsteers
  | true =>
      have htake : op.part ≠ .takes := by
        intro hpart
        rw [hpart, htakes] at hop
        cases hop
      show op.serves = false
      cases op with
      | sched op => cases op <;> first
          | rfl
          | exact absurd rfl htake
          | cases hsteers
      | _ => rfl

theorem dispatching_rotates :
    Dispatching (V := V) (rotation V A turn w₀ goal)
      (Approaching w₀ goal total) (Approaching w₀ goal total)
      (fun _ => True) where
  falls := fun _ _ => trivial
  settles := fun _ hw => hw
  decides := {
    stable := (approaching_keeps hgoal).stable
    op := fun op hop => (approaching_keeps hgoal).op op
      (trailing_has rfl rfl rfl op hop) }
  single := by
    intro reply
    refine schedule_rotates hgoal fun key => ?_
    refine Within.bind (callUser_uses (trailing_has rfl rfl rfl)).attempt
      fun r _ => ?_
    cases r with
    | some _ => trivial
    | none =>
        exact Within.seq (dropReply_uses (trailing_has rfl rfl rfl) reply)
          (fun _ => Within.throw)
  stream := by
    intro reply
    refine Keeps.bind (trailing_safe hgoal (completeReply_uses
      (trailing_has rfl rfl rfl) reply none)) fun _ => ?_
    refine schedule_rotates hgoal fun key => ?_
    exact Within.seq (callUser_uses (trailing_has rfl rfl rfl))
      (fun _ => Within.pure trivial)

theorem drains_rotate (hrivals : (w₀.sched.rivals goal).Nodup)
    (batch : Nat -> List Envelope) (count : Nat)
    (hw : Approaching w₀ goal 0 w) :
    wp (rotation V A turn w₀ goal) (drains turn batch count)
      (fun _ => Approaching w₀ goal (count * activePollBudget))
      (fun _ => True) w := by
  apply wp.rounds (fun drained w => Began w₀ goal w ∨ (drained <= count ∧
    Behind w₀ goal (drained * activePollBudget) [] w))
  · cases hw with
    | inl hbegan => exact Or.inl hbegan
    | inr hbehind => exact Or.inr ⟨Nat.zero_le _, by simpa using hbehind⟩
  · intro drained w hw
    rcases hw with hbegan | ⟨hcount, hbehind⟩
    · exact began_rounds hgoal (fun _ _ => Or.inl) (fun _ _ => Or.inl) hbegan
    · by_cases hmore : drained < count
      · simp only [if_pos hmore]
        apply wp.seq (poll_rotates hgoal hrivals (Or.inr hbehind))
        intro _ w hw
        have hdispatch : wp (rotation V A turn w₀ goal)
            (forEach (batch drained) Envelope.dispatch : P V Unit)
            (fun _ => Approaching w₀ goal
              (drained * activePollBudget + activePollBudget))
            (fun _ => True) w :=
          wp.forEach (fun envelope _ _ hw =>
            (dispatching_rotates hgoal).dispatch envelope hw) hw
        apply wp.seq hdispatch
        intro _ w hw
        rw [← Nat.succ_mul] at hw
        apply wp.again
        cases hw with
        | inl hbegan => exact Or.inl hbegan
        | inr hbehind => exact Or.inr ⟨hmore, hbehind⟩
      · simp only [if_neg hmore]
        have hall : drained = count :=
          Nat.le_antisymm hcount (Nat.le_of_not_lt hmore)
        subst hall
        exact wp.done (Or.inr hbehind)

end Dispatch

/-!
## Fairness
-/

def Sched.dues (sched : Sched) : List Key :=
  sched.items.keys.filter fun key =>
    (sched.wakes key).ready && decide (key ∈ sched.ready)

def drainsFor (replies : Nat) : Nat :=
  (replies + (activePollBudget - 1)) / activePollBudget

/--
Ahead of a reply that is due no live reply is queued twice, and there are no
more of them than the drains that all replies need can poll.
-/
def Sched.InTurn (sched : Sched) : Prop :=
  forall goal, sched.Due goal ->
    (sched.rivals goal).Nodup ∧
      (sched.rivals goal).length <
        drainsFor sched.dues.length * activePollBudget

/-- What drains lead to while the mode stays and nobody takes the lease. -/
def DrainsTo (A : ActorConfig) (turn : TurnContext)
    (batch : Nat -> List Envelope) (count : Nat) (w : World V) :
    Config (Op V) (World V) Unit -> Prop :=
  Machine.Reaches ((machine V A).solo Unit) (fun c _ => Rotates turn c.state)
    ⟨w, drains turn batch count⟩

theorem queued_known {c : ActorState V} (h : Reachable A c)
    (hkey : key ∈ c.state.sched.ready) : key < c.state.sched.items.next := by
  have hrecord : exists log, Machine.Reaches (overtaking V A) Machine.Anything
      ((initial V A).shadowing []) (c.shadowing log) :=
    Machine.Reaches.shadowing [] h
  rcases hrecord with ⟨log, hrecord⟩
  have haccounted : Accounted (c.state, log) := (key_safe hrecord).inv
  by_contra hunknown
  have hnone : c.state.sched.backlog key = 0 :=
    haccounted.known key (Nat.le_of_not_lt hunknown)
  have hpos := List.count_pos_iff.mpr hkey
  unfold Sched.backlog at hnone
  omega

/-- The first drain begins with the goal behind its rivals. -/
theorem behind_start (hknown : forall key, key ∈ w.sched.ready ->
      key < w.sched.items.next) (hdue : w.sched.Due goal) :
    Behind w goal 0 [] w where
  live := hdue.left
  flagged := hdue.right.left
  unpolled := rfl
  queued := by
    rcases Sched.ready_ahead hdue.right.right with ⟨post, hready⟩
    refine ⟨w.sched.ahead goal, post, hready, ?_, ?_, ?_⟩
    · intro key hkey
      constructor
      · apply hknown
        rw [hready]
        exact List.mem_append_left _ hkey
      · intro heq
        subst heq
        exact Sched.not_mem_ahead w.sched key hkey
    · exact fun _ => Nat.le_refl _
    · exact Nat.le_of_eq (Nat.zero_add _)
  gone := fun _ _ hdead => hdead

theorem drains_safe {batch : Nat -> List Envelope} {count : Nat}
    {c' : Config (Op V) (World V) Unit}
    (hknown : forall key, key ∈ w.sched.ready -> key < w.sched.items.next)
    (hdue : w.sched.Due goal) (hrivals : (w.sched.rivals goal).Nodup)
    (h : DrainsTo A turn batch count w c') :
    Safe (rotation V A turn w goal)
      (fun _ => Approaching w goal (count * activePollBudget))
      (fun _ => True) c' := by
  have hgoal := hknown goal hdue.right.right
  have hstart : Even w goal w :=
    ⟨Nat.le_refl _, Or.inr fun _ => Nat.le_succ _⟩
  have hsafe : Safe (rotation V A turn w goal)
      (fun _ => Approaching w goal (count * activePollBudget))
      (fun _ => True) ⟨w, drains turn batch count⟩ :=
    ⟨hstart, w, .refl, drains_rotate hgoal hrivals batch count
      (Or.inr (behind_start hknown hdue))⟩
  apply Safe.run (rotation_lawful hgoal) _ hsafe (h.weaken _)
  · intro γ op input p s hcancel
    cases hcancel
  · intro c event hrotates
    rcases c with ⟨s, prog⟩
    cases event with
    | env e => trivial
    | actor input =>
        cases prog with
        | act op next => exact hrotates
        | _ => trivial

/--
A state that a run of the actor reaches is drained several times, with any
dispatches in between, while the mode is the expected one and no lease is taken.
If the queue is in turn, then as long as a reply that was due is not polled, no
other reply is polled twice, and as soon as there were enough drains for all
replies that were due, it has been polled.
-/
theorem replies_drained_fairly (V : Type) (A : ActorConfig) (c : ActorState V)
    (hreach : Reachable A c) (hinTurn : c.state.sched.InTurn) (goal : Key)
    (hdue : c.state.sched.Due goal) (turn : TurnContext)
    (batch : Nat -> List Envelope) (count : Nat) :
    (forall c', DrainsTo A turn batch count c.state c' ->
      c'.state.sched.polls goal = c.state.sched.polls goal ->
        forall key, c'.state.sched.polls key <=
          c.state.sched.polls key + 1) ∧
    (drainsFor c.state.sched.dues.length <= count ->
      forall w', DrainsTo A turn batch count c.state ⟨w', .pure ()⟩ ->
        c.state.sched.polls goal < w'.sched.polls goal) := by
  have hknown : forall key, key ∈ c.state.sched.ready ->
      key < c.state.sched.items.next := fun _ => queued_known hreach
  have hgoal := hknown goal hdue.right.right
  rcases hinTurn goal hdue with ⟨hrivals, hfew⟩
  constructor
  · intro c' h hunpolled
    have heven : Even c.state goal c'.state :=
      (drains_safe hknown hdue hrivals h).inv
    cases heven.even with
    | inl hbegan =>
        unfold Began at hbegan
        rw [hunpolled] at hbegan
        exact absurd hbegan (Nat.lt_irrefl _)
    | inr heven => exact heven
  · intro hcount w' h
    have happroaching : Approaching c.state goal (count * activePollBudget) w' :=
      Safe.returned
        (Q := fun _ => Approaching c.state goal (count * activePollBudget))
        (approaching_keeps hgoal).stable (drains_safe hknown hdue hrivals h)
    cases happroaching with
    | inl hbegan => exact hbegan
    | inr hbehind =>
        rcases hbehind.queued with ⟨rest, post, _, _, _, htotal⟩
        have hbudget : drainsFor c.state.sched.dues.length * activePollBudget <=
            count * activePollBudget := Nat.mul_le_mul_right _ hcount
        omega

/-!
## Two replies
-/

theorem Sched.mem_dues {sched : Sched} :
    goal ∈ sched.dues <-> sched.Due goal := by
  have hlive : goal ∈ sched.items.keys <-> sched.isLive goal = true := by
    unfold isLive
    rw [Slots.mem_keys_iff, Option.isSome_iff_exists]
  unfold dues Due
  rw [List.mem_filter, Bool.and_eq_true, decide_eq_true_iff, hlive]

instance (sched : Sched) : Decidable sched.InTurn :=
  decidable_of_iff (forall goal, goal ∈ sched.dues ->
      (sched.rivals goal).Nodup ∧ (sched.rivals goal).length <
        drainsFor sched.dues.length * activePollBudget) <| by
    unfold Sched.InTurn
    simp only [Sched.mem_dues]

instance (w : World V) : Decidable (Rotates turn w) :=
  inferInstanceAs (Decidable (_ ∧ _))

def wakesOf (key : Key) : List (Event (Input Unit) EnvAct) :=
  [.env (.notifySwap key), .env (.notifyPush 0), .env (.notifyWake 0)]

/-- Two calls are dispatched, and both replies are pending. -/
def twoCalls : List (Event (Input Unit) EnvAct) :=
  [.env .reserve, .env (.admitEnvelope .call), .env .reserve,
    .env (.admitEnvelope .call), .actor (.spawn true), silent, ready, silent,
    silent, silent, silent]

/-- Both replies are woken while the second one is polled. -/
def inTurnQueue : ActorState Unit :=
  (machine Unit sociable).stage .next 100
    (twoCalls ++ wakesOf 1 ++ wakesOf 0 ++ [silent]) 0 (initial Unit sociable)

def noBatch : Nat -> List Envelope :=
  fun _ => []

/-- Whether the mode is the expected one, and no lease is held. -/
def rotates (c : Config (Op Unit) (World Unit) Unit)
    (_ : Event (Input Unit) EnvAct) : Bool :=
  decide (Rotates ordinaryTurn c.state)

theorem rotates_permitted (c : Config (Op Unit) (World Unit) Unit)
    (event : Event (Input Unit) EnvAct) (h : rotates c event = true) :
    Rotates ordinaryTurn c.state :=
  of_decide_eq_true h

/-- One drain, while every reply stays pending. -/
def inTurnDrained : Config (Op Unit) (World Unit) Unit :=
  ((machine Unit sociable).solo Unit).settle (.user (.returns none)) 60
    ⟨inTurnQueue.state, drains ordinaryTurn noBatch 1⟩

/-- The reply behind the other one is polled in the first drain. -/
theorem inTurnQueue_drained :
    inTurnQueue.state.sched.ready = [1, 0] ∧
      inTurnQueue.state.sched.polls 0 < inTurnDrained.state.sched.polls 0 := by
  refine ⟨by decide +kernel, ?_⟩
  have hreach : Reachable sociable inTurnQueue :=
    Machine.stage_reaches (fun _ => trivial) (fun _ _ _ => trivial) _ _ _
  have hdrains : DrainsTo sociable ordinaryTurn noBatch 1 inTurnQueue.state
      inTurnDrained :=
    Machine.settle_permitted rotates_permitted (by decide +kernel)
  have hreturned : inTurnDrained.hasReturned = true := by decide +kernel
  have hpure : DrainsTo sociable ordinaryTurn noBatch 1 inTurnQueue.state
      ⟨inTurnDrained.state, .pure ()⟩ := by
    revert hdrains hreturned
    generalize inTurnDrained = c
    intro hdrains hreturned
    rcases c with ⟨w, prog⟩
    cases prog with
    | pure a => exact hdrains
    | _ => cases hreturned
  exact (replies_drained_fairly Unit sociable inTurnQueue hreach
    (by decide +kernel) 0 (Sched.mem_dues.mp (by decide +kernel)) ordinaryTurn
    noBatch 1).right (by decide +kernel) _ hpure

/-- The second reply has the lease, and a leased poll leaves its key over. -/
def overtakenCalls : List (Event (Input Unit) EnvAct) :=
  twoCalls ++ acquires :: silent :: wakesOf 1 ++
    .actor (.user .releaseLease) :: wakesOf 1 ++ wakesOf 0 ++ [silent]

def overtakenQueue : ActorState Unit :=
  (machine Unit sociable).stage .next 100 overtakenCalls 13
    (initial Unit sociable)

/-- The reply whose key is queued twice wakes itself while it is polled. -/
def overtakenDrain : Config (Op Unit) (World Unit) Unit :=
  ((machine Unit sociable).solo Unit).stage .next 60 (wakesOf 1 ++ [silent]) 60
    ⟨overtakenQueue.state, drains ordinaryTurn noBatch 1⟩

/-- The first reply is due, and the second one is polled twice before it. -/
theorem overtakenQueue_unfair :
    Reachable sociable overtakenQueue ∧
      overtakenQueue.state.sched.lease = none ∧
      overtakenQueue.state.sched.Due 0 ∧
      DrainsTo sociable ordinaryTurn noBatch 1 overtakenQueue.state
        overtakenDrain ∧
      overtakenDrain.state.sched.polls 0 =
        overtakenQueue.state.sched.polls 0 ∧
      overtakenDrain.state.sched.polls 1 =
        overtakenQueue.state.sched.polls 1 + 2 :=
  ⟨Machine.stage_reaches (fun _ => trivial) (fun _ _ _ => trivial) _ _ _,
    by decide +kernel, Sched.mem_dues.mp (by decide +kernel),
    Machine.stage_permitted rotates_permitted (by decide +kernel),
    by decide +kernel, by decide +kernel⟩

end Loac

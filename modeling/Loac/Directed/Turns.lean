import Loac.Directed.Lanes

/-!
# Turns that miss nothing

A turn is suspended when its circle found nothing, when the holder of the lease
is not to be polled, or when the task was woken to go on.
-/

namespace Loac

open Interleave Interleave.Prog

variable {V α β γ : Type} {A : ActorConfig} {w w' : World V}
  {turn : TurnContext} {X : World V -> Prop}

/-!
## Turns
-/

theorem pollLanes_leaves (start : ReplyLane)
    (hw : Kept A w ∧ w.sched.lease = none) :
    wp (directed V A) (pollLanes A turn start) (PollLeaves A turn)
      (fun _ => True) w := by
  have hstart : Combing A turn start (start.distance start) w := by
    rw [ReplyLane.distance_self]
    exact hw.left.combing hw.right
  apply wp.rounds (fun lane => Combing A turn start (start.distance lane)) hstart
  intro lane w hw
  have hlook : Keeps (directed V A) (Combing A turn start (start.distance lane))
      (fun _ => True) (differs turn.expectedMode) :=
    Combing.perform (fun _ => ⟨rfl, rfl, fun _ => rfl, fun _ => rfl⟩) rfl rfl
  apply wp.seq (hlook w hw)
  intro differs w hw
  cases differs with
  | true => exact wp.done hw.known.kept
  | false =>
      apply wp.seq (visit_leaves start lane hw)
      intro visit w hw
      cases visit with
      | leave result => exact wp.done hw
      | selected selected =>
          have hset : Keeps (directed V A) (Kept A) (fun _ => True)
              (sched (.setCursor lane.next)) :=
            Known.perform ⟨rfl, rfl, fun _ => rfl, fun _ => rfl⟩ rfl
          apply wp.seq (hset w hw)
          intro _ w hw
          exact wp.done hw
      | nothing =>
          have hnext := ReplyLane.distance_next start lane
          by_cases hlast : lane.next = start
          · simp only [if_pos hlast]
            have hall : Combing A turn start 3 w := by
              have hdistance := (hnext.resolve_right
                (fun hopen => hopen.left hlast)).right
              have hcombing : Combing A turn start
                (start.distance lane + 1) w := hw
              rw [hdistance] at hcombing
              exact hcombing
            have hset : Keeps (directed V A) (Combing A turn start 3)
                (fun _ => True) (sched (.setCursor start.next)) :=
              Combing.perform
                (fun _ => ⟨rfl, rfl, fun _ => rfl, fun _ => rfl⟩) rfl rfl
            apply wp.seq (hset w hall)
            intro _ w hw
            exact wp.done hw.rests
          · simp only [if_neg hlast]
            have hdistance := (hnext.resolve_left
              (fun hclosed => hlast hclosed.left)).right
            have hcombing : Combing A turn start (start.distance lane + 1) w :=
              hw
            rw [← hdistance] at hcombing
            exact wp.again hcombing

theorem pollTurn_leaves (hmailbox : A.mailbox ≠ none) (hw : Kept A w) :
    wp (directed V A) (pollTurn A turn) (PollLeaves A turn)
      (fun _ => True) w := by
  have hop : forall {α : Type} (op : Op V α),
      Spares (fun _ => False) op -> op.rekeys = false ->
        Keeps (directed V A) (Kept A) (fun _ => True) (perform op) :=
    fun op hspares hkeys => Known.perform hspares hkeys
  unfold pollTurn
  cases hprofile : A.mailbox with
  | none => exact absurd hprofile hmailbox
  | some _ =>
      apply wp.seq (hop (.differs turn.expectedMode)
        ⟨rfl, rfl, fun _ => rfl, fun _ => rfl⟩ rfl w hw)
      intro differs w hw
      cases differs with
      | true => exact wp.pure hw
      | false =>
          apply wp.seq (isLeased_known Known.stable hw)
          intro leased w hw
          cases leased with
          | true =>
              apply wp.seq (poll_held hw)
              intro result w hw
              cases result with
              | progress => exact wp.pure hw
              | pending => exact wp.pure (Resting.rests hw)
              | leased => exact wp.pure (Resting.rests hw)
              | budgetExhausted => exact wp.pure (Resting.rests hw)
          | false =>
              have hfree : Kept A w ∧ w.sched.lease = none :=
                ⟨hw.left, by simpa using hw.right⟩
              apply wp.bind
              apply wp.op (Known.stable.and
                (directed_lease (fun lease => lease = none))) hfree
              intro w hledger hw
              refine ⟨trivial, ?_⟩
              intro input w' start _ hexec _
              rw [(Op.sched_result (machine_exec hexec)).left]
              exact pollLanes_leaves start hw

theorem pollActorReplies_kept :
    Keeps (directed V A) (Kept A) (fun _ => True)
      (pollActorReplies A turn) := by
  unfold pollActorReplies
  cases A.mailbox with
  | none => exact Keeps.pure _
  | some _ =>
      refine Keeps.bind poll_kept fun result => ?_
      cases result <;> exact Keeps.pure _

/-!
## The whole life
-/

theorem Op.abides_kept {op : Op V α} (hop : op.part.abides = true) :
    op.rekeys = false ∧ op.places = false := by
  cases op with
  | sched op => cases op <;> first
      | exact ⟨rfl, rfl⟩
      | cases hop
  | _ => exact ⟨rfl, rfl⟩

/-- An operation that neither queues a key nor makes an entry. -/
theorem Kept.exec {op : Op V α} {input : Input V} {a : α} (h : Kept A w)
    (hledger : w.sched.Ledger) (hop : op.rekeys = false ∧ op.places = false)
    (hexec : op.exec A input w = some (w', a)) : Kept A w' where
  booked := h.booked.exec hledger hop.left hop.right hexec
  inbox := False.elim
  sated := False.elim
  exits := False.elim

theorem kept_awake {parts : List Part}
    (hparts : parts.all Part.abides = true) :
    (awake V parts).Keeps (directed V A) (Kept A) where
  stable := Known.stable
  op := by
    intro β op hop w hledger hw
    have habides : op.part.abides = true :=
      List.all_eq_true.mp hparts _ (List.contains_iff_mem.mp hop.left)
    have hkept := Op.abides_kept habides
    refine ⟨directed_demands hop.right hkept.left, ?_⟩
    intro input w' b _ hexec _
    exact ⟨hw.exec hledger hkept (machine_exec hexec), trivial⟩

/-- Nothing is known of a teardown, in which no turn is suspended. -/
theorem directed_loose {parts : List Part}
    (hplaces : parts.contains .places = false)
    (htakes : parts.contains .takes = false) :
    (awake V parts).Keeps (directed V A) (fun _ => True) where
  stable := Discipline.Stable.true
  op := by
    intro β op hop w _ _
    have hkeys : op.rekeys = false := by
      cases op with
      | sched op => cases op <;> first
          | rfl
          | exact absurd (htakes.symm.trans hop.left) Bool.noConfusion
          | exact absurd (hplaces.symm.trans hop.left) Bool.noConfusion
      | _ => rfl
    exact ⟨directed_demands hop.right hkeys,
      fun _ _ _ _ _ _ => ⟨trivial, trivial⟩⟩

theorem rests_stable : (directed V A).Stable (Rests A turn) :=
  fun _ _ _ hledger htolerates hexec h =>
    ⟨h.kept.env hledger htolerates hexec,
      fun hreceives => (h.seen hreceives).env htolerates hexec⟩

theorem select_kept {site : Site}
    (hrests : forall w : World V, Rests A turn w ->
      DirectedDemands A (.suspend site : Op V Unit) w)
    {poll : P V (Poll γ)}
    (hpoll : forall w, Kept A w ->
      wp (directed V A) poll (PollLeaves A turn) (fun _ => True) w)
    (hw : Kept A w) :
    wp (directed V A) (select site () (pollOnce poll)) (fun _ => Kept A)
      (fun _ => True) w := by
  have hlook : forall {α : Type} (op : Op V α), op.part.abides = true ->
      op.sleeps = false ->
        Keeps (directed V A) (Kept A) (fun _ => True) (perform op) := by
    intro α op habides hsleeps
    have hall : (awake V [op.part]).Keeps (directed V A) (Kept A) :=
      kept_awake (by simp [habides])
    exact (Vocabulary.Keeps.perform hall op ⟨by simp, hsleeps⟩)
  apply wp.onExit
  apply wp.mono (Q := fun _ => Kept A) (X := fun _ => True)
  · exact fun _ => hlook .dropNotified rfl rfl
  · intro w _
    have hdrops : (perform .dropNotified : P V Unit).Uses
        (awake V [.notified]) := awake_has.perform rfl rfl
    exact hdrops.keeps (directed_loose rfl rfl) w trivial
  · apply wp.rounds (fun _ => Kept A) hw
    intro _ w hw
    apply wp.seq (hlook .pollNotified rfl rfl w hw)
    intro notified w hw
    cases notified with
    | true => exact wp.done hw
    | false =>
        apply wp.bind
        apply wp.seq (hpoll w hw)
        intro r w hw
        cases r with
        | some c => exact wp.pure (wp.done hw)
        | none =>
            apply wp.pure
            apply wp.seq (R := fun _ => Kept A)
            · apply wp.op rests_stable hw
              intro w hledger hw
              refine ⟨hrests w hw, ?_⟩
              intro input w' _ _ hexec _
              exact hw.kept.exec hledger ⟨rfl, rfl⟩ (machine_exec hexec)
            · intro _ w hw
              exact wp.again hw

theorem actorTurn_kept (hmailbox : A.mailbox ≠ none)
    (hreceives : turn.expectedMode = .running -> turn.receiveMessages = true) :
    Keeps (directed V A) (Kept A) (fun _ => True) (actorTurn A turn) := by
  intro w hw
  have hrests : forall w : World V, Rests A turn w ->
      DirectedDemands A (.suspend (.turn turn.expectedMode) : Op V Unit) w := by
    intro w hw
    cases hmode : turn.expectedMode with
    | running => exact hw.seen (hreceives hmode)
    | _ => trivial
  apply wp.seq (select_kept hrests
    (fun _ hw => pollTurn_leaves hmailbox hw) hw)
  intro r w hw
  cases r <;> exact wp.pure hw

theorem finishRepliesTurn_kept :
    Keeps (directed V A) (Kept A) (fun _ => True) (finishRepliesTurn A) := by
  intro w hw
  have hpoll : forall w, Kept A w ->
      wp (directed V A) (pollActorReplies A
        { receiveMessages := false, expectedMode := .stopping })
        (PollLeaves A { receiveMessages := false, expectedMode := .stopping })
        (fun _ => True) w := by
    intro w hw
    apply wp.mono _ (fun _ hX => hX) (pollActorReplies_kept w hw)
    intro result w hw
    cases result with
    | none => exact ⟨hw, fun hnever => by cases hnever⟩
    | some _ => exact hw
  have hrests : forall w : World V, Rests A
      { receiveMessages := false, expectedMode := .stopping } w ->
        DirectedDemands A (.suspend .finishReplies : Op V Unit) w :=
    fun _ _ => trivial
  apply wp.seq (select_kept hrests hpoll hw)
  intro _ w hw
  exact wp.pure hw

theorem directed_spine (hmailbox : A.mailbox ≠ none) :
    Spine A (directed V A) (Kept A) (Kept A) (Kept A) (Kept A)
      (fun _ => True) (fun _ => Kept A) := by
  have hawake : (awake V steadyParts).Keeps (directed V A) (Kept A) :=
    kept_awake rfl
  have hkept : forall {α : Type} {p : P V α}, p.Uses (awake V steadyParts) ->
      Keeps (directed V A) (Kept A) (fun _ => True) p :=
    fun hp => (hp.keeps hawake).conseq (fun _ _ => trivial)
  have hteardown : (awake V looseParts).Keeps (directed V A)
      (fun _ => True) := directed_loose rfl rfl
  have hloose : (repertoire V looseParts).Keeps (directed V A)
      (fun _ => True) := awake_keeps hteardown rfl rfl
  have hhas : HasAwake (awake V steadyParts) steadyParts := awake_has
  have hidle : Keeps (directed V A) (Kept A) (fun _ => True) (isIdle A) :=
    hkept (isIdle_uses (hhas.has rfl rfl))
  exact {
    falls := fun _ _ => trivial
    waits := fun _ _ => trivial
    calm := awake_keeps hawake rfl rfl
    loose := hloose
    kill := (killActor_uses repertoire_has).keeps hloose
    fail := (failActor_uses repertoire_has).keeps hloose
    init := hkept (runInit_awake (hhas.mono rfl))
    running := by
      intro w hw
      apply wp.mono _ (fun _ hX => hX)
        (actorTurn_kept hmailbox (fun _ => rfl) w hw)
      intro turn w hw
      rw [leads_same]
      exact hw
    hook := fun event => hkept (handleChildExit_awake (hhas.mono rfl) event)
    shutdown := fun shutdown => hkept (callUser_uses (hhas.has rfl rfl))
    empties := fun _ => hkept (hhas.perform rfl rfl)
    draining := by
      intro drained w hw
      apply wp.seq (hidle w hw)
      intro idle w hw
      by_cases hfinished : (!(!drained) && idle) = true
      · simp only [if_pos hfinished]
        exact wp.pure hw
      · simp only [if_neg hfinished]
        have hreceives : Mode.draining = .running ->
            (!drained) = true := fun hnever => by cases hnever
        apply wp.seq (actorTurn_kept hmailbox hreceives w hw)
        intro turn w hw
        apply wp.pure
        rw [drainLeads_same]
        exact hw
    discards := hkept (closeAndDiscard_uses (hhas.has rfl rfl) true _)
    idle := by
      intro w hw
      apply wp.mono _ (fun _ hX => hX) (hidle w hw)
      intro idle w hw
      cases idle <;> exact hw
    modes := hkept (hhas.perform rfl rfl)
    stopping := fun _ => finishRepliesTurn_kept _
    graceful := by
      intro shutdown reason w hw
      apply wp.mono (fun _ _ _ => trivial) (fun _ hX => hX) (hkept
        (gracefulFinish_awake (hhas.mono rfl) shutdown reason) w hw) }

theorem directed_safe (hmailbox : A.mailbox ≠ none) {c : ActorState V}
    (h : Machine.Reaches (machine V A) (directed V A).Permits (initial V A) c) :
    Safe (directed V A) (fun _ _ => True) (fun _ => True) c := by
  have hkept : Kept A (World.new V) :=
    ⟨.new, False.elim, False.elim, False.elim⟩
  have hledger : (directed V A).inv (World.new V) := Sched.Ledger.new
  exact (directed_spine hmailbox).safe directed_lawful (fun _ _ => rfl)
    (fun _ _ => trivial) hledger hkept h

end Loac

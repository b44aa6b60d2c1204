import Loac.Containment.Works
import Loac.Course.Discipline
import Loac.Interleave.Watch
import Loac.Scheduling.Effects

/-!
# Finished replies

A reply is finished once the handler's future has returned.  A scheduler is
tidy when the finished replies are gone from the queue and do not hold the
lease, but for the one whose poll the actor task is in the middle of.
-/

namespace Loac

open Interleave Interleave.Prog

variable {V α : Type} {A : ActorConfig} {w₀ w w' : World V} {key : Key}
  {hand : Option Key}

/-- The handler's future of the reply has returned since the first world. -/
def Readied (w₀ w : World V) (key : Key) : Prop :=
  w₀.life.course.count (.user (.replyPoll key) .ready) <
    w.life.course.count (.user (.replyPoll key) .ready)

/-- No reply of the queue has already given up what it owes its caller. -/
def Mended (w : World V) : Prop :=
  forall key scheduled, w.sched.items.get? key = some scheduled ->
    scheduled.future ≠ .completeReply none

structure Cleared (w₀ w : World V) (key : Key) : Prop where
  gone : Readied w₀ w key -> w.sched.items.get? key = none
  free : Readied w₀ w key -> w.sched.lease ≠ some key
  owing : Mended w₀ -> forall scheduled,
    w.sched.items.get? key = some scheduled ->
      scheduled.future ≠ .completeReply none

def Prolonged (w w' : World V) : Prop :=
  forall entry, w.life.course.count entry <= w'.life.course.count entry

theorem Prolonged.same (h : w'.life.course = w.life.course) : Prolonged w w' :=
  fun entry => Nat.le_of_eq (congrArg (List.count entry) h.symm)

structure Tidy (w₀ : World V) (hand : Option Key) (w : World V) : Prop where
  grown : Prolonged w₀ w
  bounded : forall key, Readied w₀ w key -> key < w.sched.items.next
  others : forall key, hand ≠ some key -> Cleared w₀ w key

theorem Tidy.start (hmended : Mended w₀ -> Mended w) (hlife : w.life = w₀.life) :
    Tidy w₀ none w := by
  have hnone : forall key, ¬ Readied w₀ w key := by
    intro key h
    unfold Readied at h
    rw [hlife] at h
    exact Nat.lt_irrefl _ h
  constructor
  · exact Prolonged.same (congrArg Life.course hlife)
  · intro key h
    exact absurd h (hnone key)
  · intro key _
    exact ⟨fun h => absurd h (hnone key), fun h => absurd h (hnone key),
      fun hm => hmended hm key⟩

/-- What a step may do without making a tidy scheduler untidy. -/
theorem Tidy.mono (h : Tidy w₀ hand w) (hgrown : Prolonged w w')
    (hreadied : forall key, Readied w₀ w' key -> Readied w₀ w key ∨
      hand = some key ∧ key < w'.sched.items.next)
    (hnext : w.sched.items.next <= w'.sched.items.next)
    (hitems : forall key scheduled, hand ≠ some key ->
      w'.sched.items.get? key = some scheduled ->
        exists before, w.sched.items.get? key = some before ∧
          (before.future ≠ .completeReply none ->
            scheduled.future ≠ .completeReply none))
    (hlease : forall key, hand ≠ some key -> Readied w₀ w key ->
      w'.sched.lease = some key -> w.sched.lease = some key) :
    Tidy w₀ hand w' := by
  constructor
  · exact fun entry => Nat.le_trans (h.grown entry) (hgrown entry)
  · intro key hready
    cases hreadied key hready with
    | inl hbefore => exact Nat.lt_of_lt_of_le (h.bounded key hbefore) hnext
    | inr hkey => exact hkey.right
  · intro key hhand
    have hkey := h.others key hhand
    have hreadied : Readied w₀ w' key -> Readied w₀ w key := by
      intro hready
      cases hreadied key hready with
      | inl hbefore => exact hbefore
      | inr hown => exact absurd hown.left hhand
    constructor
    · intro hready
      have hgone := hkey.gone (hreadied hready)
      cases hget : w'.sched.items.get? key with
      | none => rfl
      | some scheduled =>
          rcases hitems key scheduled hhand hget with ⟨before, hbefore, _⟩
          rw [hgone] at hbefore
          cases hbefore
    · intro hready hheld
      have hbefore := hreadied hready
      exact hkey.free hbefore (hlease key hhand hbefore hheld)
    · intro hmended scheduled hget
      rcases hitems key scheduled hhand hget with ⟨before, hbefore, howing⟩
      exact howing (hkey.owing hmended before hbefore)

theorem Tidy.same (h : Tidy w₀ hand w) (hgrown : Prolonged w w')
    (hreadied : forall key, Readied w₀ w' key -> Readied w₀ w key)
    (hitems : w'.sched.items = w.sched.items)
    (hlease : w'.sched.lease = w.sched.lease) : Tidy w₀ hand w' := by
  apply h.mono hgrown (fun key hready => Or.inl (hreadied key hready))
  · exact Nat.le_of_eq (by rw [hitems])
  · intro key scheduled _ hget
    rw [hitems] at hget
    exact ⟨scheduled, hget, fun howing => howing⟩
  · intro key _ _ hheld
    rw [← hlease]
    exact hheld

/-- Nothing is known of the reply that is taken in hand. -/
theorem Tidy.take (h : Tidy w₀ none w) (key : Key) : Tidy w₀ (some key) w where
  grown := h.grown
  bounded := h.bounded
  others := fun other _ => h.others other (by simp)

/-- The reply in hand is put down when what is known of the others holds. -/
theorem Tidy.put (h : Tidy w₀ (some key) w) (hkey : Cleared w₀ w key) :
    Tidy w₀ none w where
  grown := h.grown
  bounded := h.bounded
  others := by
    intro other _
    by_cases heq : key = other
    · rw [← heq]
      exact hkey
    · exact h.others other (by simpa using heq)

theorem Tidy.unfinished {scheduled : ScheduledFuture} (h : Tidy w₀ hand w)
    (hhand : hand ≠ some key)
    (hget : w.sched.items.get? key = some scheduled) :
    ¬ Readied w₀ w key := by
  intro hready
  have hgone := (h.others key hhand).gone hready
  rw [hgone] at hget
  cases hget

/-!
## Steps
-/

theorem readied_of_course {entry : Entry}
    (hcourse : w'.life.course = entry :: w.life.course)
    (hentry : entry ≠ .user (.replyPoll key) .ready)
    (h : Readied w₀ w' key) : Readied w₀ w key := by
  unfold Readied at h ⊢
  rw [hcourse, List.count_cons_of_ne hentry] at h
  exact h

theorem readied_of_same (hcourse : w'.life.course = w.life.course)
    (h : Readied w₀ w' key) : Readied w₀ w key := by
  unfold Readied at h ⊢
  rw [hcourse] at h
  exact h

theorem EnvAct.tidy_exec {e : EnvAct} (henv : e.exec A w = some w')
    (h : Tidy w₀ hand w) : Tidy w₀ hand w' := by
  have hlife := EnvAct.life_exec henv
  have hcourse := congrArg Life.course hlife
  exact h.same (Prolonged.same hcourse) (fun key => readied_of_same hcourse)
    (EnvAct.items_exec henv) (EnvAct.lease_exec henv)

theorem Op.readied_exec {op : Op V α} {input : Input V} {a : α}
    (hexec : op.exec A input w = some (w', a)) (h : Readied w₀ w' key) :
    Readied w₀ w key ∨ op.part = .polls := by
  rcases Op.course_exec hexec with hsame | ⟨entry, hnotes, hcons⟩
  · exact Or.inl (readied_of_same hsame h)
  · by_cases hentry : entry = .user (.replyPoll key) .ready
    · apply Or.inr
      rw [hentry] at hnotes
      cases hnotes
      rfl
    · exact Or.inl (readied_of_course hcons hentry h)

theorem Op.user_course {site : UserSite} {input : Input V}
    {step : UserStep V}
    (hexec : (Op.user site).exec A input w = some (w', step)) :
    w'.life.course = .user site step.outcome :: w.life.course := by
  cases input with
  | user act => exact World.userStep_course hexec
  | _ => cases hexec

theorem Op.grown_exec {op : Op V α} {input : Input V} {a : α}
    (hexec : op.exec A input w = some (w', a)) : Prolonged w w' := by
  rcases Op.course_exec hexec with hsame | ⟨added, _, hcons⟩
  · exact Prolonged.same hsame
  · intro entry
    rw [hcons]
    exact List.count_le_count_cons ..

theorem Op.readied_mono {op : Op V α} {input : Input V} {a : α}
    (hexec : op.exec A input w = some (w', a)) (h : Readied w₀ w key) :
    Readied w₀ w' key := by
  exact Nat.lt_of_lt_of_le h (Op.grown_exec hexec _)

theorem tidy_user {site : UserSite} {input : Input V} {step : UserStep V}
    (hreturns : forall key value, site = .replyPoll key ->
      step ≠ .returns (some value))
    (hcx : forall key, site.cx = some key ->
      hand = some key ∨ ¬ Readied w₀ w key)
    (hexec : (Op.user site).exec A input w = some (w', step))
    (h : Tidy w₀ hand w) : Tidy w₀ hand w' := by
  have hreadied : forall key, Readied w₀ w' key -> Readied w₀ w key := by
    intro key
    apply readied_of_course (Op.user_course hexec)
    intro heq
    injection heq with hsite houtcome
    cases step with
    | returns value =>
        cases value with
        | none => cases houtcome
        | some value => exact hreturns key value hsite rfl
    | continues => cases houtcome
    | panics => cases houtcome
  have hschedules := Op.user_schedules hexec
  have hsched : (w'.sched.items = w.sched.items ∧
      (w'.sched.lease = w.sched.lease ∨ w'.sched.lease = none ∨
        exists key, site.cx = some key ∧ w'.sched.lease = some key)) := by
    revert hschedules
    generalize w'.sched = sched'
    intro hschedules
    cases hschedules with
    | nothing step _ => exact ⟨rfl, Or.inl rfl⟩
    | acquired key hcx => exact ⟨rfl, Or.inr (Or.inr ⟨key, hcx, rfl⟩)⟩
    | released key _ => exact ⟨rfl, Or.inr (Or.inl rfl)⟩
    | returned key value hsite => exact absurd rfl (hreturns key value hsite)
  rcases hsched with ⟨hitems, hlease⟩
  apply h.mono (Op.grown_exec hexec) (fun key hready => Or.inl (hreadied key hready))
  · exact Nat.le_of_eq (by rw [hitems])
  · intro key scheduled _ hget
    rw [hitems] at hget
    exact ⟨scheduled, hget, fun howing => howing⟩
  · intro key hhand hready hheld
    rcases hlease with hsame | hnone | ⟨holder, hreach, hholder⟩
    · rw [← hsame]
      exact hheld
    · rw [hnone] at hheld
      cases hheld
    · rw [hholder] at hheld
      injection hheld with heq
      subst heq
      cases hcx holder hreach with
      | inl hown => exact absurd hown hhand
      | inr hunready => exact absurd hready hunready

/-- The operations of the scheduler that keep it tidy whatever is in hand. -/
def SchedOp.tidies (hand : Option Key) : SchedOp α -> Prop
  | .place _ _ => False
  | .takeReply key => hand = some key
  | _ => True

theorem SchedOp.items_exec {op : SchedOp α} (sched : Sched)
    (hop : op.tidies hand) :
    sched.items.next <= (op.exec sched).1.items.next ∧
      forall key scheduled, hand ≠ some key ->
        (op.exec sched).1.items.get? key = some scheduled ->
          exists before, sched.items.get? key = some before ∧
            (before.future ≠ .completeReply none ->
              scheduled.future ≠ .completeReply none) := by
  have hsame : forall {sched' : Sched}, sched'.items = sched.items ->
      sched.items.next <= sched'.items.next ∧
        forall key scheduled, hand ≠ some key ->
          sched'.items.get? key = some scheduled ->
            exists before, sched.items.get? key = some before ∧
              (before.future ≠ .completeReply none ->
                scheduled.future ≠ .completeReply none) := by
    intro sched' hitems
    rw [hitems]
    exact ⟨Nat.le_refl _, fun key scheduled _ hget =>
      ⟨scheduled, hget, fun howing => howing⟩⟩
  have hremoved : forall removed : Key,
      (sched.items.remove removed).next = sched.items.next ∧
        forall key scheduled,
          (sched.items.remove removed).get? key = some scheduled ->
            sched.items.get? key = some scheduled := by
    intro removed
    refine ⟨rfl, ?_⟩
    intro key scheduled hget
    rw [Slots.get?_remove] at hget
    split at hget
    · cases hget
    · exact hget
  cases op with
  | place key future => cases hop
  | reserve =>
      exact ⟨Nat.le_succ _, fun key scheduled _ hget =>
        ⟨scheduled, hget, fun howing => howing⟩⟩
  | markReady key =>
      apply hsame
      show (sched.markReady key).items = _
      unfold Sched.markReady
      split <;> rfl
  | takeReady key =>
      apply hsame
      show (sched.takeReady key).1.items = _
      unfold Sched.takeReady
      split <;> rfl
  | popReady =>
      apply hsame
      show sched.popReady.1.items = _
      unfold Sched.popReady
      split <;> rfl
  | remove key =>
      rcases hremoved key with ⟨hnext, hget⟩
      exact ⟨Nat.le_of_eq hnext.symm, fun key' scheduled _ h =>
        ⟨scheduled, hget key' scheduled h, fun howing => howing⟩⟩
  | drain =>
      show sched.items.next <= sched.drain.1.items.next ∧ forall key scheduled,
        hand ≠ some key -> sched.drain.1.items.get? key = some scheduled -> _
      unfold Sched.drain
      cases hentries : sched.items.entries with
      | nil => exact hsame rfl
      | cons entry rest =>
          rcases hremoved entry.1 with ⟨hnext, hget⟩
          exact ⟨Nat.le_of_eq hnext.symm, fun key' scheduled _ h =>
            ⟨scheduled, hget key' scheduled h, fun howing => howing⟩⟩
  | takeReply key =>
      show sched.items.next <= (sched.takeReply key).1.items.next ∧
        forall key' scheduled, hand ≠ some key' ->
          (sched.takeReply key).1.items.get? key' = some scheduled -> _
      unfold Sched.takeReply
      split
      · refine ⟨Nat.le_refl _, ?_⟩
        intro key' scheduled hhand hget
        have hne : key' ≠ key := by
          intro heq
          rw [heq] at hhand
          exact hhand hop
        rw [Slots.get?_modify, if_neg hne] at hget
        exact ⟨scheduled, hget, fun howing => howing⟩
      · exact hsame rfl
  | takeFinal key =>
      show sched.items.next <= (sched.takeFinal key).1.items.next ∧
        forall key' scheduled, hand ≠ some key' ->
          (sched.takeFinal key).1.items.get? key' = some scheduled -> _
      unfold Sched.takeFinal
      split
      · refine ⟨Nat.le_refl _, ?_⟩
        intro key' scheduled _ hget
        rw [Slots.get?_modify] at hget
        split at hget
        · rcases Option.map_eq_some_iff.mp hget with ⟨before, hbefore, heq⟩
          refine ⟨before, hbefore, ?_⟩
          intro _
          rw [← heq]
          simp
        · exact ⟨scheduled, hget, fun howing => howing⟩
      · exact hsame rfl
  | held => exact hsame rfl
  | forceRelease => exact hsame rfl
  | length => exact hsame rfl
  | isEmpty => exact hsame rfl
  | cursor => exact hsame rfl
  | setCursor lane => exact hsame rfl
  | find key => exact hsame rfl
  | register key => exact hsame rfl
  | readyIsEmpty turn => exact hsame rfl

theorem SchedOp.lease_exec (op : SchedOp α) (sched : Sched) :
    (op.exec sched).1.lease = sched.lease ∨ (op.exec sched).1.lease = none := by
  cases op with
  | forceRelease => exact Or.inr rfl
  | markReady key =>
      apply Or.inl
      show (sched.markReady key).lease = _
      unfold Sched.markReady
      split <;> rfl
  | takeReady key =>
      apply Or.inl
      show (sched.takeReady key).1.lease = _
      unfold Sched.takeReady
      split <;> rfl
  | popReady =>
      apply Or.inl
      show sched.popReady.1.lease = _
      unfold Sched.popReady
      split <;> rfl
  | drain =>
      apply Or.inl
      show sched.drain.1.lease = _
      unfold Sched.drain
      split <;> rfl
  | takeReply key =>
      apply Or.inl
      show (sched.takeReply key).1.lease = _
      unfold Sched.takeReply
      split <;> rfl
  | takeFinal key =>
      apply Or.inl
      show (sched.takeFinal key).1.lease = _
      unfold Sched.takeFinal
      split <;> rfl
  | _ => exact Or.inl rfl

theorem tidy_sched {op : SchedOp α} {input : Input V} {a : α}
    (hop : op.tidies hand)
    (hexec : (Op.sched op).exec A input w = some (w', a))
    (h : Tidy w₀ hand w) : Tidy w₀ hand w' := by
  cases hexec
  rcases SchedOp.items_exec w.sched hop with ⟨hnext, hitems⟩
  refine h.mono (fun _ => Nat.le_refl _)
    (fun key hready => Or.inl (readied_of_same rfl hready)) hnext hitems ?_
  intro key _ _ hheld
  cases SchedOp.lease_exec op w.sched with
  | inl hsame =>
      rw [← hsame]
      exact hheld
  | inr hnone =>
      change (op.exec w.sched).1.lease = some key at hheld
      rw [hnone] at hheld
      cases hheld

/-- The operations that keep a scheduler tidy whatever is in hand. -/
def Op.tidies (hand : Option Key) : Op V α -> Prop
  | .user site => site.part ≠ .polls ∧
      forall key, site.cx = some key -> hand = some key
  | .sched op => op.tidies hand
  | _ => True

theorem Op.schedules_of_polls {op : Op V α} (h : op.part = .polls) :
    op.schedules = true := by
  cases op with
  | user site => rfl
  | sched op => rfl
  | transact t => cases t <;> cases h
  | suspend site => cases site <;> cases h
  | reach point => cases point <;> cases h
  | mail op => cases op <;> cases h
  | kin op => cases op <;> cases h
  | _ => cases h

theorem tidy_op {op : Op V α} {input : Input V} {a : α}
    (hop : op.tidies hand) (hexec : op.exec A input w = some (w', a))
    (h : Tidy w₀ hand w) : Tidy w₀ hand w' := by
  cases hschedules : op.schedules with
  | false =>
      have hsched := Op.sched_exec hschedules hexec
      refine h.same (Op.grown_exec hexec) ?_ (by rw [hsched]) (by rw [hsched])
      intro key hready
      cases Op.readied_exec hexec hready with
      | inl hbefore => exact hbefore
      | inr hpart =>
          have hpolls := Op.schedules_of_polls hpart
          rw [hschedules] at hpolls
          cases hpolls
  | true =>
      cases op with
      | sched op => exact tidy_sched hop hexec h
      | user site =>
          refine tidy_user ?_ (fun key hcx => Or.inl (hop.right key hcx))
            hexec h
          intro key value hsite _
          rw [hsite] at hop
          exact hop.left rfl
      | _ => cases hschedules

end Loac

import Loac.Directed.Steps
import Loac.Exclusion.Discipline

/-!
# Polls that leave nothing

A drain polls the replies whose keys are queued, one at a time.  A poll that
begins clears the flag of its reply, and a key that was popped is no longer
needed then.  Where the queue is found empty, every reply was polled after the
wakes that are over.
-/

namespace Loac

open Interleave Interleave.Prog

variable {V α β γ : Type} {A : ActorConfig} {w w' : World V} {key : Key}
  {late : Option Key} {seen : ReplyLane -> Prop} {X : World V -> Prop}
  {books : Sched}

/-!
## What is known in a turn
-/

/-- The books are right, and some lanes were seen to have nothing. -/
structure Known (A : ActorConfig) (late : Option Key)
    (seen : ReplyLane -> Prop) (w : World V) : Prop where
  booked : Booked late w.sched
  inbox : seen .mailbox -> InboxSeen A w
  sated : seen .reply -> forall key, Sated key w
  exits : seen .childExit -> ExitsSeen w

abbrev Kept (A : ActorConfig) : World V -> Prop :=
  Known A none (fun _ => False)

structure Resting (A : ActorConfig) (w : World V) : Prop where
  kept : Kept A w
  seen : AllSeen A w

theorem Known.mono {few : ReplyLane -> Prop} (h : Known A late seen w)
    (hfew : forall lane, few lane -> seen lane) : Known A late few w where
  booked := h.booked
  inbox := fun hlane => h.inbox (hfew _ hlane)
  sated := fun hlane => h.sated (hfew _ hlane)
  exits := fun hlane => h.exits (hfew _ hlane)

theorem Known.kept (h : Known A none seen w) : Kept A w :=
  h.mono (fun _ hnever => hnever.elim)

theorem Known.weaken (h : Known A none seen w) : Known A late seen w where
  booked := h.booked.weaken
  inbox := h.inbox
  sated := h.sated
  exits := h.exits

theorem Known.env {e : EnvAct} (h : Known A late seen w)
    (hledger : w.sched.Ledger) (htolerates : DirectedTolerates e w)
    (hexec : e.exec A w = some w') : Known A late seen w' where
  booked := h.booked.env hledger htolerates hexec
  inbox := fun hlane => (h.inbox hlane).env hexec
  sated := fun hlane key => (h.sated hlane key).env htolerates hexec
  exits := fun hlane => (h.exits hlane).env hexec

theorem Known.stable : (directed V A).Stable (Known A late seen) :=
  fun _ _ _ hledger htolerates hexec h => h.env hledger htolerates hexec

theorem resting_stable : (directed V A).Stable (Resting A) :=
  fun _ _ _ hledger htolerates hexec h =>
    ⟨h.kept.env hledger htolerates hexec, h.seen.env htolerates hexec⟩

theorem directed_lease (Q : Option Key -> Prop) :
    (directed V A).Stable (fun w => Q w.sched.lease) := by
  intro e w w' _ _ hexec hQ
  rw [EnvAct.lease_exec hexec]
  exact hQ

structure Spares (seen : ReplyLane -> Prop) (op : Op V α) : Prop where
  suspends : op.suspends = false
  places : op.places = false
  vacates : seen .mailbox -> op.vacates = false
  looks : seen .childExit -> op.looksForExit = false

theorem Known.exec {op : Op V α} {input : Input V} {a : α}
    (h : Known A late seen w) (hledger : w.sched.Ledger)
    (hspares : Spares seen op) (hkeys : op.rekeys = false)
    (hexec : op.exec A input w = some (w', a)) : Known A late seen w' where
  booked := h.booked.exec hledger hkeys hspares.places hexec
  inbox := fun hlane =>
    (h.inbox hlane).exec hspares.suspends (hspares.vacates hlane) hexec
  sated := fun hlane key =>
    (h.sated hlane key).exec hledger hspares.suspends hspares.places hexec
  exits := fun hlane =>
    (h.exits hlane).exec hspares.suspends (hspares.looks hlane) hexec

theorem directed_demands {op : Op V α} (hsuspends : op.sleeps = false)
    (hkeys : op.rekeys = false) : DirectedDemands A op w := by
  cases op with
  | suspend site => cases site <;> trivial
  | sched op => cases op <;> trivial
  | _ => trivial

theorem Op.awake_of_suspends {op : Op V α} (h : op.suspends = false) :
    op.sleeps = false := by
  cases op with
  | suspend site => cases h
  | _ => rfl

theorem Known.perform {op : Op V α} (hspares : Spares seen op)
    (hkeys : op.rekeys = false) :
    Keeps (directed V A) (Known A late seen) X (perform op) := by
  intro w hw
  apply wp.op Known.stable hw
  intro w hledger hw
  refine ⟨directed_demands (Op.awake_of_suspends hspares.suspends) hkeys, ?_⟩
  intro input w' a _ hexec _
  exact hw.exec hledger hspares hkeys (machine_exec hexec)

/-!
## Polling one reply
-/

structure Tending (A : ActorConfig) (key : Key) (seen : ReplyLane -> Prop)
    (w : World V) : Prop where
  known : Known A none seen w
  sated : Sated key w
  lease : w.sched.lease = none ∨ w.sched.lease = some key

theorem Tending.stable : (directed V A).Stable (Tending A key seen) :=
  fun e w w' hledger htolerates hexec h =>
    ⟨h.known.env hledger htolerates hexec, h.sated.env htolerates hexec,
      directed_lease (fun lease => lease = none ∨ lease = some key) e w w'
        hledger htolerates hexec h.lease⟩

def Op.leasesOnly (key : Key) : Op V α -> Prop
  | .user site => site.cx = none ∨ site.cx = some key
  | _ => True

theorem Op.lease_only {op : Op V α} {input : Input V} {a : α}
    (hop : op.leasesOnly key) (hexec : op.exec A input w = some (w', a))
    (h : w.sched.lease = none ∨ w.sched.lease = some key) :
    w'.sched.lease = none ∨ w'.sched.lease = some key := by
  cases hleases : op.leases with
  | false =>
      rw [Op.lease_same hleases hexec]
      exact h
  | true =>
      cases op with
      | sched op =>
          rw [(Op.sched_result hexec).left]
          cases op with
          | forceRelease => exact Or.inl rfl
          | _ => cases hleases
      | user site =>
          cases hop with
          | inl hnone =>
              change site.cx.isSome = true at hleases
              rw [hnone] at hleases
              cases hleases
          | inr hown => exact Op.user_lease site hown hexec h
      | _ => cases hleases

def tending (V : Type) (key : Key) (seen : ReplyLane -> Prop) :
    Vocabulary (Op V) where
  uses := fun op => Spares seen op ∧ op.rekeys = false ∧ op.leasesOnly key
  gives := fun _ _ => True

theorem tending_keeps :
    (tending V key seen).Keeps (directed V A) (Tending A key seen) where
  stable := Tending.stable
  op := by
    intro β op hop w hledger hw
    rcases hop with ⟨hspares, hkeys, hleases⟩
    refine ⟨directed_demands (Op.awake_of_suspends hspares.suspends) hkeys, ?_⟩
    intro input w' b _ hexec _
    have hexec := machine_exec hexec
    exact ⟨⟨hw.known.exec hledger hspares hkeys hexec,
      hw.sated.exec hledger hspares.suspends hspares.places hexec,
      Op.lease_only hleases hexec hw.lease⟩, trivial⟩

/-- What goes with the poll of a reply, up to its removal. -/
def tendingParts : List Part :=
  [.looks, .fails, .answers, .values, .takes, .removes]

theorem tending_calm {parts : List Part}
    (hparts : parts.all tendingParts.contains = true)
    (hseen : seen .mailbox -> parts.contains .removes = false) :
    HasCalm (tending V key seen) parts := by
  intro α op hop hsteers
  have htending : tendingParts.contains op.part = true :=
    List.all_eq_true.mp hparts _ (List.contains_iff_mem.mp hop)
  have hremoves : seen .mailbox -> op.part ≠ .removes := by
    intro hlane heq
    rw [heq, hseen hlane] at hop
    cases hop
  cases op with
  | sched op => cases op <;> first
      | exact ⟨⟨rfl, rfl, fun _ => rfl, fun _ => rfl⟩, rfl, trivial⟩
      | exact ⟨⟨rfl, rfl, fun hlane => absurd rfl (hremoves hlane),
          fun _ => rfl⟩, rfl, trivial⟩
      | (cases htending; done)
      | cases hsteers
  | mail op => cases op <;> first
      | exact ⟨⟨rfl, rfl, fun _ => rfl, fun _ => rfl⟩, rfl, trivial⟩
      | cases htending
  | kin op => cases op <;> first
      | exact ⟨⟨rfl, rfl, fun _ => rfl, fun _ => rfl⟩, rfl, trivial⟩
      | cases htending
  | user site => cases site <;> first
      | exact ⟨⟨rfl, rfl, fun _ => rfl, fun _ => rfl⟩, rfl, Or.inl rfl⟩
      | cases htending
  | suspend site => cases site <;> cases htending
  | _ => exact ⟨⟨rfl, rfl, fun _ => rfl, fun _ => rfl⟩, rfl, trivial⟩

theorem runUser_tending {site : UserSite} (hcx : site.cx = some key) :
    (runUser site : P V (Option V)).Uses (tending V key seen) := by
  have hstep : (perform (.user site) : P V (UserStep V)).Uses
      (tending V key seen) :=
    Within.perform ⟨⟨rfl, rfl, fun _ => rfl, fun _ => rfl⟩, rfl, Or.inr hcx⟩
      (fun _ _ => trivial)
  apply Within.repeated
  intro _
  refine Within.seq hstep fun step => ?_
  cases step <;> trivial

theorem pollWithTask_tending (scheduled : ScheduledFuture)
    (hw : Tending A key seen w) :
    wp (directed V A) (scheduled.pollWithTask key)
      (fun _ => Tending A key seen) (fun _ => True) w := by
  have hcalm : HasCalm (tending V key seen)
      [.fails, .answers, .values, .takes] := tending_calm rfl (fun _ => rfl)
  have hpoll : (runUser (.replyPoll key) : P V (Option V)).Uses
      (tending V key seen) := runUser_tending rfl
  have huses : (scheduled.pollWithTask key : P V Bool).Uses
      (tending V key seen) := by
    refine Within.seq (hcalm.perform rfl rfl) fun _ => ?_
    cases scheduled.future with
    | completeReply _ =>
        refine Within.seq hpoll fun value => ?_
        cases value with
        | none => trivial
        | some value =>
            refine Within.seq (hcalm.perform rfl rfl) fun reply => ?_
            cases reply with
            | none => trivial
            | some reply =>
                exact Within.seq (completeReply_calm (hcalm.mono rfl) reply _)
                  (fun _ => trivial)
    | finishStream _ =>
        refine Within.seq hpoll fun value => ?_
        cases value with
        | none => trivial
        | some _ =>
            refine Within.seq (hcalm.perform rfl rfl) fun final => ?_
            exact Within.seq (Within.onlyIf (callUser_calm (hcalm.mono rfl)))
              (fun _ => trivial)
  exact (huses.keeps tending_keeps).conseq (fun _ _ => trivial) w hw

theorem complete_free (hseen : ¬ seen .mailbox) (hw : Tending A key seen w) :
    wp (directed V A) (Queue.complete key)
      (fun _ w => Known A none seen w ∧ w.sched.lease = none)
      (fun _ => True) w := by
  have hcalm : HasCalm (tending V key seen)
      [.looks, .fails, .answers, .values, .removes] :=
    tending_calm rfl (fun hlane => absurd hlane hseen)
  have hdrop : (callUser (.replyDrop key false) : P V Unit).Uses
      (tending V key seen) := Within.seq (runUser_tending rfl) (fun _ => trivial)
  have hremove : (Queue.remove key : P V Unit).Uses (tending V key seen) := by
    refine Within.seq (hcalm.perform rfl rfl) fun removed => ?_
    cases removed with
    | none => trivial
    | some scheduled =>
        apply dropUserValue_calm (hcalm.mono rfl)
        unfold ScheduledFuture.drop
        split
        · exact Within.seq (dropReply_calm (hcalm.mono rfl) _)
            (fun _ => hdrop)
        · exact hdrop
        · exact Within.onExit hdrop (callUser_calm (hcalm.mono rfl))
        · exact hdrop
  apply wp.seq ((hremove.keeps tending_keeps).conseq (fun _ _ => trivial) w hw)
  intro _ w hw
  apply wp.bind
  apply wp.op Tending.stable hw
  intro w _ hw
  refine ⟨trivial, ?_⟩
  intro input w' held _ hexec _
  rcases Op.sched_result (machine_exec hexec) with ⟨hworld, hheld⟩
  change w.sched.lease = held at hheld
  subst hworld
  apply wp.onlyIf
  · intro _
    apply wp.op Tending.stable hw
    intro w hledger hw
    refine ⟨trivial, ?_⟩
    intro input w' _ _ hexec _
    have hexec := machine_exec hexec
    refine ⟨hw.known.exec hledger
      ⟨rfl, rfl, fun _ => rfl, fun _ => rfl⟩ rfl hexec, ?_⟩
    rw [(Op.sched_result hexec).left]
    rfl
  · intro hother
    refine ⟨hw.known, hw.lease.resolve_right ?_⟩
    exact fun hown => of_decide_eq_false hother (hheld.symm.trans hown)

/-!
## The beginning of a poll
-/

theorem Sched.takeReady_flag (sched : Sched) (key : Key) :
    (sched.takeReady key).1.flag key = false := by
  cases hflag : sched.flag key with
  | false =>
      rw [Sched.takeReady_clear hflag]
      exact hflag
  | true =>
      unfold Sched.flag at hflag
      unfold Sched.takeReady Sched.flag
      rw [if_pos hflag]
      show ((sched.setWake key _).wakes key).ready = false
      rw [Sched.wakes_setWake, if_pos rfl]

theorem Booked.clear (h : Booked (some key) books)
    (hflag : books.flag key = false) : Booked none books where
  filed := h.filed
  queued := by
    intro other hlive hset
    refine (h.queued other hlive hset).imp ?_ id
    intro heq
    cases heq
    rw [hflag] at hset
    cases hset

/-- The poll of a reply begins under a lease that is free, or its own. -/
theorem takeReady_tending {Q : Option Key -> Prop}
    (hQ : forall lease, Q lease -> lease = none ∨ lease = some key)
    (hw : Known A (some key) seen w ∧ Q w.sched.lease) :
    wp (directed V A) (Loac.sched (.takeReady key))
      (fun _ w => Tending A key seen w ∧ Q w.sched.lease) X w := by
  apply wp.op (Known.stable.and (directed_lease Q)) hw
  intro w hledger hw
  refine ⟨trivial, ?_⟩
  intro input w' ready _ hexec _
  have hexec := machine_exec hexec
  have hspares : Spares seen (.sched (.takeReady key) : Op V Bool) :=
    ⟨rfl, rfl, fun _ => rfl, fun _ => rfl⟩
  have hnow := hw.left.exec hledger hspares rfl hexec
  have hlease : Q w'.sched.lease := by
    rw [Op.lease_same rfl hexec]
    exact hw.right
  have hworld := (Op.sched_result hexec).left
  refine ⟨⟨⟨?_, hnow.inbox, hnow.sated, hnow.exits⟩, ?_, hQ _ hlease⟩, hlease⟩
  · apply hnow.booked.clear
    rw [hworld]
    exact w.sched.takeReady_flag key
  · rw [hworld]
    exact hw.left.booked.tended hledger key

theorem Tending.allSeen (h : Tending A key seen w)
    (hheld : w.sched.lease ≠ none) : AllSeen A w where
  inbox := fun hfree => absurd hfree hheld
  exits := fun hfree => absurd hfree hheld
  sated := fun hfree => absurd hfree hheld
  holder := by
    intro other hother
    rcases h.lease with hfree | hown
    · exact absurd hfree hheld
    · rw [hown] at hother
      cases hother
      exact h.sated

end Loac

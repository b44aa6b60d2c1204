import Loac.Delivery.Books

/-!
# What lasts

While the books are worked on, more is known than that they are balanced: that
nothing is dispatched any more, that a key is still free, that a value was
returned.  Such facts last as long as no envelope is taken and no reply placed.
-/

namespace Loac

open Interleave

variable {V α : Type} {A : ActorConfig} {w w' : World V}
  {hand : List Envelope} {debt : Debt} {value : Option (Nat × V)}

/-- The operation takes an envelope out of the queue or places a reply. -/
def Op.moves : Op V α -> Bool
  | .mail (.pollRecv _) => true
  | .mail .tryRecv => true
  | .sched (.place _ _) => true
  | _ => false

theorem Op.moves_of_books {op : Op V α} (h : op.books = false) :
    op.moves = false := by
  cases op with
  | mail op => cases op <;> first | rfl | cases h
  | sched op => cases op <;> first | rfl | cases h
  | _ => rfl

/-!
## What operations do to the mailbox
-/

theorem Mail.reject_grows (mail : Mail V) (envelope : Envelope) :
    mail.Grows (mail.reject envelope) := by
  unfold Mail.reject
  split
  · exact { Mail.Grows.refl mail with
      rejected := fun _ hmem => List.mem_cons_of_mem _ hmem }
  · exact Mail.Grows.refl mail

theorem MailOp.grows_exec (op : MailOp V α) (transport : Transport)
    (mode : Mode) (reception : Reception) (mail : Mail V) :
    mail.Grows (op.exec transport mode reception mail).1 := by
  cases op with
  | close => exact { Mail.Grows.refl mail with }
  | isEmpty => exact Mail.Grows.refl mail
  | pollRecv turn =>
      show mail.Grows (mail.pollRecv transport reception).1
      unfold Mail.pollRecv
      split
      · exact Mail.Grows.refl mail
      split
      · exact { Mail.Grows.refl mail with }
      · split
        · exact Mail.Grows.refl mail
        · exact { Mail.Grows.refl mail with }
  | tryRecv =>
      show mail.Grows mail.tryRecv.1
      unfold Mail.tryRecv
      split
      · exact Mail.Grows.refl mail
      · exact { Mail.Grows.refl mail with
          rejected := fun _ hmem => List.mem_cons_of_mem _ hmem }
  | replyIsClosed envelope =>
      show mail.Grows (mail.replyIsClosed envelope).1
      unfold Mail.replyIsClosed
      split
      · exact mail.reject_grows envelope
      · exact Mail.Grows.refl mail
  | beginDispatch envelope =>
      show mail.Grows (mail.beginDispatch mode envelope).1
      unfold Mail.beginDispatch
      split
      · split
        · exact { Mail.Grows.refl mail with
            dispatched := fun _ hmem => List.mem_cons_of_mem _ hmem }
        · exact Mail.Grows.refl mail
      · exact mail.reject_grows envelope
  | beginCompletion id =>
      show mail.Grows (mail.beginCompletion mode id).1
      unfold Mail.beginCompletion
      split
      · exact { Mail.Grows.refl mail with
          completed := fun _ hmem => List.mem_cons_of_mem _ hmem }
      · exact Mail.Grows.refl mail
  | respond id response => exact { Mail.Grows.refl mail with }

theorem Op.grows_exec {op : Op V α} {input : Input V} {a : α}
    (h : op.exec A input w = some (w', a)) : w.mail.Grows w'.mail := by
  cases hmail : op.isMail with
  | true =>
      cases op with
      | mail op =>
          cases h
          exact op.grows_exec _ _ _ _
      | _ => cases hmail
  | false =>
      rcases Op.mail_exec hmail h with ⟨returned, hsame, hreturned⟩
      rw [hsame]
      exact { Mail.Grows.refl w.mail with returned := hreturned }

structure Mail.Stays (mail mail' : Mail V) : Prop where
  queue : mail'.queue = mail.queue
  attempted : mail'.attempted = mail.attempted
  discarded : mail'.discarded = mail.discarded

theorem Mail.reject_stays (mail : Mail V) (envelope : Envelope) :
    mail.Stays (mail.reject envelope) := by
  unfold Mail.reject
  split <;> exact ⟨rfl, rfl, rfl⟩

theorem Op.stays_exec {op : Op V α} {input : Input V} {a : α}
    (hmoves : op.moves = false) (h : op.exec A input w = some (w', a)) :
    w.mail.Stays w'.mail := by
  cases hmail : op.isMail with
  | true =>
      cases op with
      | mail op =>
          cases h
          cases op with
          | close => exact ⟨rfl, rfl, rfl⟩
          | isEmpty => exact ⟨rfl, rfl, rfl⟩
          | pollRecv turn => cases hmoves
          | tryRecv => cases hmoves
          | replyIsClosed envelope =>
              show w.mail.Stays (w.mail.replyIsClosed envelope).1
              unfold Mail.replyIsClosed
              split
              · exact w.mail.reject_stays envelope
              · exact ⟨rfl, rfl, rfl⟩
          | beginDispatch envelope =>
              show w.mail.Stays (w.mail.beginDispatch _ envelope).1
              unfold Mail.beginDispatch
              split
              · split <;> exact ⟨rfl, rfl, rfl⟩
              · exact w.mail.reject_stays envelope
          | beginCompletion id =>
              show w.mail.Stays (w.mail.beginCompletion _ id).1
              unfold Mail.beginCompletion
              split <;> exact ⟨rfl, rfl, rfl⟩
          | respond id response => exact ⟨rfl, rfl, rfl⟩
      | _ => cases hmail
  | false =>
      rcases Op.mail_exec hmail h with ⟨returned, hsame, _⟩
      rw [hsame]
      exact ⟨rfl, rfl, rfl⟩

/-- What the clients do to the mailbox, as far as the actor task cares. -/
theorem EnvAct.grows_exec {e : EnvAct} (h : e.exec A w = some w') :
    w.mail.Grows w'.mail ∧ w'.mail.attempted = w.mail.attempted ∧
      w'.mail.discarded = w.mail.discarded ∧
      (w.control.mode ≠ .running -> w'.mail.queue = w.mail.queue) := by
  rcases EnvAct.mail_exec h with
    ⟨queue, reserved, waker, nextId, admitted, refused, abandoned, hmail,
      habandoned, hqueue⟩
  rw [hmail]
  refine ⟨{ Mail.Grows.refl w.mail with abandoned := habandoned }, rfl, rfl,
    ?_⟩
  intro hclosing
  rcases hqueue with ⟨hsame, _⟩ | ⟨hrunning, _⟩
  · exact hsame
  · exact absurd hrunning hclosing

/-!
## Lasting facts
-/

/-- The fact survives everything but taking envelopes and placing replies. -/
structure Lasting (A : ActorConfig) (P : World V -> Prop) : Prop where
  env : forall (e : EnvAct) (w w' : World V), MailInv w ->
    e.exec A w = some w' -> P w -> P w'
  op : forall {α : Type} (op : Op V α) (input : Input V) (w w' : World V)
    (a : α), op.moves = false -> MailInv w ->
      op.exec A input w = some (w', a) -> P w -> P w'

/-- The fact survives everything but placing replies. -/
structure Enduring (A : ActorConfig) (P : World V -> Prop) : Prop where
  env : forall (e : EnvAct) (w w' : World V), MailInv w ->
    e.exec A w = some w' -> P w -> P w'
  op : forall {α : Type} (op : Op V α) (input : Input V) (w w' : World V)
    (a : α), op.places = false -> MailInv w ->
      op.exec A input w = some (w', a) -> P w -> P w'

theorem Op.places_of_moves {op : Op V α} (h : op.moves = false) :
    op.places = false := by
  cases op with
  | sched op => cases op <;> first | rfl | cases h
  | _ => rfl

theorem Enduring.lasting {P : World V -> Prop} (h : Enduring A P) :
    Lasting A P where
  env := h.env
  op := fun op input w w' a hmoves =>
    h.op op input w w' a (Op.places_of_moves hmoves)

theorem Enduring.and {P P' : World V -> Prop} (h : Enduring A P)
    (h' : Enduring A P') : Enduring A (fun w => P w ∧ P' w) where
  env := fun e w w' hinv henv hw =>
    ⟨h.env e w w' hinv henv hw.left, h'.env e w w' hinv henv hw.right⟩
  op := fun op input w w' a hplaces hinv hexec hw =>
    ⟨h.op op input w w' a hplaces hinv hexec hw.left,
      h'.op op input w w' a hplaces hinv hexec hw.right⟩

theorem Enduring.true : Enduring (V := V) A (fun _ => True) where
  env := fun _ _ _ _ _ _ => trivial
  op := fun _ _ _ _ _ _ _ _ _ => trivial

/-- The fact survives everything and does not depend on the scheduler. -/
structure Detached (A : ActorConfig) (P : World V -> Prop) : Prop
    extends Enduring A P where
  sched : forall (w : World V) (sched : Sched), P w -> P { w with sched := sched }

theorem Detached.and {P P' : World V -> Prop} (h : Detached A P)
    (h' : Detached A P') : Detached A (fun w => P w ∧ P' w) where
  toEnduring := h.toEnduring.and h'.toEnduring
  sched := fun w sched hw => ⟨h.sched w sched hw.left, h'.sched w sched hw.right⟩

theorem Detached.true : Detached (V := V) A (fun _ => True) where
  toEnduring := Enduring.true
  sched := fun _ _ _ => trivial

theorem Enduring.control {P : Control -> Prop}
    (h : forall {control control' : Control}, control.Moves control' ->
      P control -> P control') :
    Enduring A (fun w : World V => P w.control) where
  env := fun _ _ _ _ henv hw => h (EnvAct.control_moves henv) hw
  op := fun _ _ _ _ _ _ _ hexec hw => h (Op.control_moves hexec) hw

theorem Enduring.seen {P : Mail V -> Prop}
    (h : forall {mail mail' : Mail V}, mail.Grows mail' -> P mail -> P mail') :
    Enduring A (fun w : World V => P w.mail) where
  env := fun _ _ _ _ henv hw => h (EnvAct.grows_exec henv).left hw
  op := fun _ _ _ _ _ _ _ hexec hw => h (Op.grows_exec hexec) hw

theorem closing_enduring : Enduring A (Closing (V := V)) :=
  Enduring.control (P := fun control => control.mode ≠ .running)
    Control.Moves.closing

theorem cut_enduring : Enduring A (Cut (V := V)) :=
  Enduring.control
    (P := fun control => control.mode ≠ .running ∧ control.mode ≠ .draining)
    Control.Moves.cut

theorem hard_enduring : Enduring A (Hard (V := V)) :=
  Enduring.control (P := fun control => control.mode.isHard = true)
    Control.Moves.isHard

theorem blames_enduring (reason : ExitReason) :
    Enduring A (fun w : World V => Blames w.control.committed reason) :=
  Enduring.control (P := fun control => Blames control.committed reason)
    fun hmoves h => h.mono (fun _ => hmoves.committed)

theorem hardened_enduring : Enduring A (Hardened (V := V)) where
  env := fun _ _ _ _ henv hw =>
    hw.mono (fun _ => (EnvAct.control_moves henv).committed)
  op := fun _ _ _ _ _ _ _ hexec hw =>
    hw.mono (fun _ => (Op.control_moves hexec).committed)

namespace Lasting

variable {P P' : World V -> Prop}

theorem and (h : Lasting A P) (h' : Lasting A P') :
    Lasting A (fun w => P w ∧ P' w) where
  env := fun e w w' hinv henv hw =>
    ⟨h.env e w w' hinv henv hw.left, h'.env e w w' hinv henv hw.right⟩
  op := fun op input w w' a hmoves hinv hexec hw =>
    ⟨h.op op input w w' a hmoves hinv hexec hw.left,
      h'.op op input w w' a hmoves hinv hexec hw.right⟩

theorem stable (h : Lasting A P) : (deliveryDiscipline V A).Stable P :=
  fun e w w' hinv _ henv hw => h.env e w w' hinv henv hw

end Lasting

/-!
## Facts about the queue
-/

def Emptied (w : World V) : Prop :=
  Closing w ∧ w.mail.queue = []

def Discardable (w : World V) : Prop :=
  Closing w ∧ (Cut w ∨ w.mail.queue = [])

theorem Cut.discardable (h : Cut w) : Discardable w :=
  ⟨h.left, Or.inl h⟩

theorem Emptied.discardable (h : Emptied w) : Discardable w :=
  ⟨h.left, Or.inr h.right⟩

theorem emptied_enduring : Enduring A (Emptied (V := V)) where
  env := by
    intro e w w' hinv henv hw
    refine ⟨closing_enduring.env e w w' hinv henv hw.left, ?_⟩
    exact ((EnvAct.grows_exec henv).right.right.right hw.left).trans hw.right
  op := by
    intro α op input w w' a hplaces hinv hexec hw
    refine ⟨closing_enduring.op op input w w' a hplaces hinv hexec hw.left, ?_⟩
    cases hmoves : op.moves with
    | false => exact (Op.stays_exec hmoves hexec).queue.trans hw.right
    | true =>
        cases op with
        | mail op =>
            cases hexec
            cases op with
            | pollRecv turn =>
                show (w.mail.pollRecv _ _).1.queue = []
                unfold Mail.pollRecv
                split
                · exact hw.right
                rw [hw.right]
                dsimp only
                split
                · exact hw.right
                · rfl
            | tryRecv =>
                show w.mail.tryRecv.1.queue = []
                unfold Mail.tryRecv
                rw [hw.right]
                exact hw.right
            | _ => cases hmoves
        | sched op =>
            cases hexec
            exact hw.right
        | _ => cases hmoves

theorem closing_detached : Detached A (Closing (V := V)) where
  toEnduring := closing_enduring
  sched := fun _ _ hw => hw

theorem discardable_enduring : Enduring A (Discardable (V := V)) where
  env := by
    intro e w w' hinv henv hw
    cases hw.right with
    | inl hcut => exact (cut_enduring.env e w w' hinv henv hcut).discardable
    | inr hqueue =>
        exact (emptied_enduring.env e w w' hinv henv
          ⟨hw.left, hqueue⟩).discardable
  op := by
    intro α op input w w' a hplaces hinv hexec hw
    cases hw.right with
    | inl hcut =>
        exact (cut_enduring.op op input w w' a hplaces hinv hexec
          hcut).discardable
    | inr hqueue =>
        exact (emptied_enduring.op op input w w' a hplaces hinv hexec
          ⟨hw.left, hqueue⟩).discardable

/-- Every envelope but one that was taken for dispatch was decided in time. -/
def ServingBut (envelope : Envelope) (w : World V) : Prop :=
  w.mail.discarded = [] ∧ forall e, e ∈ w.mail.attempted ->
    e ≠ envelope -> w.mail.Settled e

/-- Nothing was discarded, and dispatch is in time as long as it goes on. -/
def Serving (w : World V) : Prop :=
  w.mail.discarded = [] ∧ (w.mail.Punctual ∨ Cut w)

theorem servingBut_lasting (envelope : Envelope) :
    Lasting A (ServingBut (V := V) envelope) where
  env := by
    intro e w w' _ henv hw
    rcases EnvAct.grows_exec henv with ⟨hgrows, hattempted, hdiscarded, _⟩
    refine ⟨hdiscarded.trans hw.left, ?_⟩
    intro e' hmem hne
    rw [hattempted] at hmem
    exact (hw.right e' hmem hne).mono hgrows
  op := by
    intro α op input w w' a hmoves _ hexec hw
    have hstays := Op.stays_exec hmoves hexec
    refine ⟨hstays.discarded.trans hw.left, ?_⟩
    intro e' hmem hne
    rw [hstays.attempted] at hmem
    exact (hw.right e' hmem hne).mono (Op.grows_exec hexec)

theorem serving_lasting : Lasting A (Serving (V := V)) where
  env := by
    intro e w w' hinv henv hw
    rcases EnvAct.grows_exec henv with ⟨hgrows, hattempted, hdiscarded, _⟩
    refine ⟨hdiscarded.trans hw.left, ?_⟩
    apply hw.right.imp _ (cut_enduring.env e w w' hinv henv)
    intro hpunctual e' hmem
    rw [hattempted] at hmem
    exact (hpunctual e' hmem).mono hgrows
  op := by
    intro α op input w w' a hmoves hinv hexec hw
    have hstays := Op.stays_exec hmoves hexec
    refine ⟨hstays.discarded.trans hw.left, ?_⟩
    apply hw.right.imp _ (cut_enduring.op op input w w' a
      (Op.places_of_moves hmoves) hinv hexec)
    intro hpunctual e' hmem
    rw [hstays.attempted] at hmem
    exact (hpunctual e' hmem).mono (Op.grows_exec hexec)

/-!
## Facts about replies
-/

def Mute (key : Key) (w : World V) : Prop :=
  w.sched.holds key = none

def Reserved (key : Key) (w : World V) : Prop :=
  key < w.sched.items.next ∧ w.sched.items.get? key = none

/-- Nothing happens to the items of the scheduler, but that some are lost. -/
structure Sched.Shrinks (sched sched' : Sched) : Prop where
  next : sched.items.next <= sched'.items.next
  absent : forall key, sched.items.get? key = none ->
    sched'.items.get? key = none
  holds : forall key, sched'.holds key = sched.holds key ∨
    sched'.holds key = none

theorem Sched.Shrinks.of_items {sched sched' : Sched}
    (h : sched'.items = sched.items) : sched.Shrinks sched' where
  next := Nat.le_of_eq (by rw [h])
  absent := by
    intro key hkey
    rwa [h]
  holds := by
    intro key
    unfold Sched.holds
    rw [h]
    exact Or.inl rfl

theorem Sched.Shrinks.modify {sched : Sched} {key : Key}
    {f : ScheduledFuture -> ScheduledFuture}
    (hf : forall scheduled, sched.items.get? key = some scheduled ->
      (f scheduled).reply = scheduled.reply ∨ (f scheduled).reply = none) :
    sched.Shrinks { sched with items := sched.items.modify key f } where
  next := Nat.le_refl _
  absent := by
    intro key' hkey
    show (sched.items.modify key f).get? key' = none
    rw [Slots.get?_modify, hkey]
    split <;> rfl
  holds := by
    intro key'
    unfold Sched.holds
    rw [Slots.get?_modify]
    by_cases heq : key' = key
    · subst heq
      rw [if_pos rfl]
      cases hget : sched.items.get? key' with
      | none => exact Or.inl rfl
      | some scheduled => exact hf scheduled hget
    · rw [if_neg heq]
      exact Or.inl rfl

theorem Sched.Shrinks.remove (sched : Sched) (key : Key) :
    sched.Shrinks { sched with items := sched.items.remove key } where
  next := Nat.le_refl _
  absent := by
    intro key' hkey
    show (sched.items.remove key).get? key' = none
    rw [Slots.get?_remove, hkey]
    split <;> rfl
  holds := by
    intro key'
    unfold Sched.holds
    rw [Slots.get?_remove]
    by_cases heq : key' = key
    · rw [if_pos heq]
      exact Or.inr rfl
    · rw [if_neg heq]
      exact Or.inl rfl

theorem SchedOp.shrinks_exec {op : SchedOp α} {sched : Sched}
    (hmoves : (Op.sched op : Op V α).moves = false) :
    sched.Shrinks (op.exec sched).1 := by
  cases op with
  | place key future => cases hmoves
  | reserve =>
      exact {
        next := Nat.le_succ _
        absent := fun _ hkey => hkey
        holds := fun _ => Or.inl rfl }
  | markReady key =>
      apply Sched.Shrinks.of_items
      show (sched.markReady key).items = sched.items
      unfold Sched.markReady
      split <;> rfl
  | takeReady key =>
      apply Sched.Shrinks.of_items
      show (sched.takeReady key).1.items = sched.items
      unfold Sched.takeReady
      split <;> rfl
  | popReady =>
      apply Sched.Shrinks.of_items
      show sched.popReady.1.items = sched.items
      unfold Sched.popReady
      split <;> rfl
  | remove key => exact Sched.Shrinks.remove sched key
  | drain =>
      show sched.Shrinks sched.drain.1
      unfold Sched.drain
      split
      · exact Sched.Shrinks.of_items rfl
      · exact Sched.Shrinks.remove sched _
  | takeReply key =>
      show sched.Shrinks (sched.takeReply key).1
      unfold Sched.takeReply
      split
      · exact Sched.Shrinks.modify (fun _ _ => Or.inr rfl)
      · exact Sched.Shrinks.of_items rfl
  | takeFinal key =>
      show sched.Shrinks (sched.takeFinal key).1
      unfold Sched.takeFinal
      split
      · exact Sched.Shrinks.modify (fun _ _ => Or.inr rfl)
      · exact Sched.Shrinks.of_items rfl
  | _ => exact Sched.Shrinks.of_items rfl

theorem World.recordReturn_shrinks (w : World V) (site : UserSite)
    (value : Option V) : w.sched.Shrinks (w.recordReturn site value).sched := by
  unfold World.recordReturn
  split
  · exact Sched.Shrinks.modify (fun _ _ => Or.inl rfl)
  · exact Sched.Shrinks.of_items rfl

theorem Op.shrinks_exec {op : Op V α} {input : Input V} {a : α}
    (hmoves : op.moves = false) (h : op.exec A input w = some (w', a)) :
    w.sched.Shrinks w'.sched := by
  cases op with
  | sched op =>
      cases h
      exact SchedOp.shrinks_exec (V := V) hmoves
  | user site =>
      cases input with
      | user act =>
          cases act with
          | returns value =>
              cases h
              exact w.recordReturn_shrinks site value
          | _ =>
              apply Sched.Shrinks.of_items
              grind [Op.exec, World.userStep]
      | _ => cases h
  | spawn =>
      rw [Op.spawn_exec h]
      exact Sched.Shrinks.of_items rfl
  | _ =>
      apply Sched.Shrinks.of_items
      grind [Op.exec, World.wakeIf, World.transact]

/-- A fact about the items of the scheduler that survives their loss. -/
theorem Lasting.items {P : Sched -> Prop}
    (h : forall {sched sched' : Sched}, sched.Shrinks sched' ->
      P sched -> P sched') :
    Lasting A (fun w : World V => P w.sched) where
  env := fun _ _ _ _ henv hw =>
    h (Sched.Shrinks.of_items (EnvAct.items_exec henv)) hw
  op := fun _ _ _ _ _ hmoves _ hexec hw =>
    h (Op.shrinks_exec hmoves hexec) hw

theorem mute_lasting (key : Key) : Lasting A (Mute (V := V) key) :=
  Lasting.items (P := fun sched => sched.holds key = none) fun h hkey =>
    (h.holds key).elim (fun hsame => hsame.trans hkey) id

theorem reserved_lasting (key : Key) : Lasting A (Reserved (V := V) key) :=
  Lasting.items
    (P := fun sched => key < sched.items.next ∧ sched.items.get? key = none)
    fun h hkey => ⟨Nat.lt_of_lt_of_le hkey.left h.next, h.absent key hkey.right⟩

theorem noReplies_enduring : Enduring A (NoReplies (V := V)) where
  env := by
    intro e w w' _ henv hw
    unfold NoReplies
    rw [EnvAct.items_exec henv]
    exact hw
  op := fun _ _ _ _ _ hplaces _ hexec hw => Op.isEmpty_exec hplaces hw hexec

end Loac

import Loac.Delivery.Replies

/-!
# Scheduled replies

The scheduler polls replies, removes the ones that are ready, and drops what
it is cleared of.  Each of them is answered on the way, once.
-/

namespace Loac

open Interleave

variable {V α : Type} {A : ActorConfig} {w w' : World V}
  {hand : List Envelope} {value : Option (Nat × V)}
  {P Q : World V -> Prop} {Y : World V -> Prop}

/-!
## Polls
-/

/-- The value that has to be delivered when a future returned. -/
def dueOf (reply : Option DispatchReply) (v : V) : Option (Nat × V) :=
  reply.bind fun reply => reply.due (some v)

theorem Sched.setReturned_holds (sched : Sched) (key other : Key) :
    (sched.setReturned key).holds other = sched.holds other := by
  unfold Sched.holds Sched.setReturned
  rw [Slots.get?_modify]
  by_cases heq : other = key
  · rw [if_pos heq]
    cases sched.items.get? other <;> rfl
  · rw [if_neg heq]

theorem Balanced.recordReturn (h : Balanced hand .nobody none w) (key : Key)
    (v : V) :
    Balanced hand .nobody (dueOf (w.sched.holds key) v)
        (w.recordReturn (.replyPoll key) (some v)) ∧
      forall reply, w.sched.holds key = some reply ->
        (w.recordReturn (.replyPoll key) (some v)).mail.Earned reply
          (some v) := by
  have hold : forall id v', (id, v') ∈ w.mail.returned ->
      Hardened w ∨ (id, .ok (some v')) ∈ w.mail.responses := by
    intro id v' hmem
    rcases h.delivered id v' hmem with hhard | hsent | heq
    · exact Or.inl hhard
    · exact Or.inr hsent
    · cases heq
  have hheld : (w.sched.items.get? key).bind ScheduledFuture.reply =
      w.sched.holds key := rfl
  unfold World.recordReturn
  simp only [hheld]
  constructor
  · exact {
      mode := h.mode
      inHand := h.inHand
      owned := by
        intro e hmem hkind
        rcases h.owned e hmem hkind with
          hanswered | hqueue | hhand | ⟨other, hother⟩ | hdebt
        · exact Or.inl hanswered
        · exact Or.inr (Or.inl hqueue)
        · exact Or.inr (Or.inr (Or.inl hhand))
        · refine Or.inr (Or.inr (Or.inr (Or.inl ⟨other, ?_⟩)))
          exact (Sched.setReturned_holds w.sched key other).trans hother
        · cases hdebt
      held := by
        intro other reply hother
        have hbacked := h.held other reply
          ((Sched.setReturned_holds w.sched key other).symm.trans hother)
        cases reply with
        | caller id => exact hbacked
        | oneWay id => exact hbacked
      distinct := by
        intro other other' id hother hother'
        exact h.distinct other other' id
          ((Sched.setReturned_holds w.sched key other).symm.trans hother)
          ((Sched.setReturned_holds w.sched key other').symm.trans hother')
      owed := trivial
      delivered := by
        intro id v' hmem
        cases hkey : w.sched.holds key with
        | none =>
            rw [hkey] at hmem
            exact (hold id v' hmem).imp_right Or.inl
        | some reply =>
            rw [hkey] at hmem
            cases reply with
            | oneWay id' => exact (hold id v' hmem).imp_right Or.inl
            | caller id' =>
                cases List.mem_cons.mp hmem with
                | inl heq =>
                    cases heq
                    exact Or.inr (Or.inr rfl)
                | inr hmem => exact (hold id v' hmem).imp_right Or.inl }
  · intro reply hkey
    rw [hkey]
    cases reply with
    | caller id => exact List.mem_cons_self ..
    | oneWay id => trivial

theorem holds_stable (key : Key) (reply : Option DispatchReply) :
    (deliveryDiscipline V A).Stable
      (fun w => w.sched.holds key = reply) := by
  intro e w w' _ _ henv hw
  unfold Sched.holds
  rw [EnvAct.items_exec henv]
  exact hw

structure Returned (P : World V -> Prop) (key : Key) (v : V)
    (reply : Option DispatchReply) (w : World V) : Prop where
  book : Book [] .nobody (dueOf reply v) P w
  holds : w.sched.holds key = reply
  earned : forall r, reply = some r -> w.mail.Earned r (some v)

theorem Lasting.returned (hP : Lasting A P) (key : Key) (v : V)
    (reply : Option DispatchReply) :
    (deliveryDiscipline V A).Stable (Returned P key v reply) := by
  intro e w w' hinv htolerates henv hw
  exact {
    book := hP.book e w w' hinv htolerates henv hw.book
    holds := holds_stable key reply e w w' hinv htolerates henv hw.holds
    earned := fun r heq =>
      (earned_enduring r (some v)).env e w w' hinv henv (hw.earned r heq) }

/-- User code that does not return leaves the books alone. -/
theorem World.userStep_quiet {site : UserSite} {act : UserAct V}
    {step : UserStep V} (hact : forall result, act ≠ .returns result)
    (h : w.userStep A site act = some (w', step)) :
    w'.mail = w.mail ∧ w'.sched.items = w.sched.items ∧
      w'.control = w.control ∧ (step = .continues ∨ step = .panics) := by
  cases act with
  | returns result => exact absurd rfl (hact result)
  | _ => grind [World.userStep]

theorem runReply_returned (hP : Lasting A P) (key : Key) (hw : Clean P w) :
    wp (deliveryDiscipline V A) (runUser (.replyPoll key))
      (fun result w =>
        match result with
        | none => Clean P w
        | some v => exists reply, Returned P key v reply w)
      (Clean P) w := by
  apply wp.iter (fun _ => Clean P) hw
  intro _ w hw
  apply wp.bind
  apply wp.op hP.book hw
  intro w hinv hw
  have hopen : forall id, w.sched.holds key = some (.caller id) ->
      id ∉ w.mail.completed :=
    fun id hid => (hw.left.held key (.caller id) hid).right.right
  refine ⟨hopen, ?_⟩
  intro input w' step _ hexec _
  have hlast := hP.op (.user (.replyPoll key)) input w w' step rfl hinv hexec
    hw.right
  cases input with
  | user act =>
      have hquiet (hmail : w'.mail = w.mail)
          (hitems : w'.sched.items = w.sched.items)
          (hcontrol : w'.control = w.control) : Clean P w' := by
        refine ⟨hw.left.undisturbed (by rw [hcontrol]; exact hw.left.mode) ?_,
          hlast⟩
        exact {
          inHand := by rw [hmail]
          admitted := by rw [hmail]; exact fun _ hmem => Or.inl hmem
          queue := by rw [hmail]; exact fun _ hmem => hmem
          dispatched := by rw [hmail]
          rejected := by rw [hmail]
          completed := by rw [hmail]
          returned := by rw [hmail]
          responses := by rw [hmail]
          holds := by
            intro other
            unfold Sched.holds
            rw [hitems]
          committed := by rw [hcontrol]; exact fun _ hmem => hmem }
      have hstep : w.userStep A (.replyPoll key) act = some (w', step) := hexec
      by_cases hact : exists result, act = .returns result
      · rcases hact with ⟨result, hact⟩
        subst hact
        cases hstep
        cases result with
        | none => exact wp.done (hquiet rfl rfl rfl)
        | some v =>
            have hrecorded := hw.left.recordReturn key v
            refine wp.done ⟨w.sched.holds key,
              ⟨{ hrecorded.left with }, hlast⟩, ?_,
              hrecorded.right⟩
            exact Sched.setReturned_holds w.sched key key
      · have hne : forall result, act ≠ .returns result :=
          fun result heq => hact ⟨result, heq⟩
        rcases World.userStep_quiet hne hstep with
          ⟨hmail, hitems, hcontrol, hresult⟩
        have hw' := hquiet hmail hitems hcontrol
        cases hresult with
        | inl heq =>
            subst heq
            exact wp.again hw'
        | inr heq =>
            subst heq
            exact wp.throw hw'
  | _ => cases hexec

/-!
## Taking replies out
-/

theorem Sched.takeReply_holds (sched : Sched) (key : Key) :
    (sched.takeReply key).2 = sched.holds key ∧
      (sched.takeReply key).1.holds key = none ∧
      forall other, other ≠ key ->
        (sched.takeReply key).1.holds other = sched.holds other := by
  unfold Sched.takeReply
  split
  · rename_i reply returned hget
    refine ⟨?_, ?_, ?_⟩
    · unfold Sched.holds
      rw [hget]
      rfl
    · show ((sched.items.modify key _).get? key).bind ScheduledFuture.reply =
        none
      rw [Slots.get?_modify, if_pos rfl, hget]
      rfl
    · intro other hne
      show ((sched.items.modify key _).get? other).bind ScheduledFuture.reply =
        _
      rw [Slots.get?_modify, if_neg hne]
      rfl
  · rename_i hother
    have hnone : sched.holds key = none := by
      unfold Sched.holds
      cases hget : sched.items.get? key with
      | none => rfl
      | some scheduled =>
          rcases scheduled with ⟨future, returned⟩
          cases future with
          | completeReply reply => exact absurd hget (hother reply returned)
          | finishStream finalTx => rfl
    exact ⟨hnone.symm, hnone, fun _ _ => rfl⟩

theorem Sched.remove_holds (sched : Sched) (key : Key) :
    (sched.remove key).1.holds key = none ∧
      forall other, other ≠ key ->
        (sched.remove key).1.holds other = sched.holds other := by
  constructor
  · show ((sched.items.remove key).get? key).bind ScheduledFuture.reply = none
    rw [Slots.get?_remove, if_pos rfl]
    rfl
  · intro other hne
    show ((sched.items.remove key).get? other).bind ScheduledFuture.reply = _
    rw [Slots.get?_remove, if_neg hne]
    rfl

theorem Sched.drain_some {sched : Sched} {key : Key}
    {scheduled : ScheduledFuture}
    (h : sched.drain.2 = some (key, scheduled)) :
    sched.items.get? key = some scheduled ∧
      sched.drain.1 = (sched.remove key).1 := by
  unfold Sched.drain at h ⊢
  split at h
  · cases h
  · rename_i entry rest hentries
    cases h
    refine ⟨?_, rfl⟩
    rw [Slots.get?_eq_some_iff, hentries]
    exact List.mem_cons_self ..

structure Taken (P : World V -> Prop) (v : V) (reply : Option DispatchReply)
    (w : World V) : Prop where
  book : Book [] (owes reply) (dueOf reply v) P w
  earned : forall r, reply = some r -> w.mail.Earned r (some v)

theorem takeReply_taken (hP : Lasting A P) {key : Key} {v : V}
    {reply : Option DispatchReply} (hw : Returned P key v reply w) :
    wp (deliveryDiscipline V A) (sched (.takeReply key))
      (fun taken => Taken P v taken) Y w := by
  apply wp.op (hP.returned key v reply) hw
  intro w hinv hw
  refine ⟨trivial, ?_⟩
  intro input w' taken _ hexec _
  have hlast := hP.op (.sched (.takeReply key)) input w w' taken rfl hinv
    hexec hw.book.right
  rcases w.sched.takeReply_holds key with ⟨htaken, hgone, hothers⟩
  have htakes := hw.book.left.takes hgone hothers
  cases hexec
  have hsame : (w.sched.takeReply key).2 = reply := htaken.trans hw.holds
  rw [hw.holds] at htakes
  constructor
  · show Book [] (owes (w.sched.takeReply key).2)
      (dueOf (w.sched.takeReply key).2 v) P _
    rw [hsame]
    exact ⟨htakes, hlast⟩
  · intro r hr
    exact hw.earned r (hsame.symm.trans hr)

theorem pollComplete_pays (hP : Lasting A P) (key : Key) (hw : Clean P w) :
    wp (deliveryDiscipline V A) (CompleteReply.poll key) (fun _ => Clean P)
      (Clean P) w := by
  apply wp.seq (runReply_returned hP key hw)
  intro result w hw
  cases result with
  | none => exact wp.pure hw
  | some v =>
      rcases hw with ⟨reply, hw⟩
      apply wp.seq (takeReply_taken hP hw)
      intro taken w hw
      cases taken with
      | none => exact wp.throw hw.book
      | some reply =>
          have hpaid := complete_pays
            (hP.and (earned_enduring reply (some v)).lasting) (Y := Clean P)
            (fun _ hw => hw.right)
            ⟨hw.book.left, hw.book.right, hw.earned reply rfl⟩
          apply wp.seq hpaid
          intro _ w hw
          exact wp.pure ⟨hw.left, hw.right.left⟩

theorem pollStream_pays (hP : Lasting A P) (key : Key)
    (hmute : forall w, P w -> Mute key w) (hw : Clean P w) :
    wp (deliveryDiscipline V A) (FinishStream.poll key) (fun _ => Clean P)
      (Clean P) w := by
  apply wp.seq (runReply_returned hP key hw)
  intro result w hw
  cases result with
  | none => exact wp.pure hw
  | some v =>
      rcases hw with ⟨reply, hw⟩
      have hnone : reply = none :=
        hw.holds.symm.trans (hmute w hw.book.right)
      subst hnone
      apply wp.seq (hP.sched (.takeFinal key) rfl w hw.book)
      intro final w hw
      have hsend : Keeps (deliveryDiscipline V A) (Clean P) (Clean P)
          (Prog.onlyIf final (callUser .finalSend)) :=
        Keeps.onlyIf (hP.callClean .finalSend rfl)
      apply wp.seq (hsend w hw)
      intro _ w hw
      exact wp.pure hw

theorem pollWithTask_pays (hP : Lasting A P) (key : Key)
    (scheduled : ScheduledFuture)
    (hmute : forall w, P w -> (exists finalTx,
      scheduled.future = .finishStream finalTx) -> Mute key w)
    (hw : Clean P w) :
    wp (deliveryDiscipline V A) (scheduled.pollWithTask key)
      (fun _ => Clean P) (Clean P) w := by
  apply wp.seq (hP.sched (.register key) rfl w hw)
  intro _ w hw
  cases hfuture : scheduled.future with
  | completeReply reply => exact pollComplete_pays hP key hw
  | finishStream finalTx =>
      exact pollStream_pays hP key
        (fun w hw => hmute w hw ⟨finalTx, hfuture⟩) hw

/-!
## Dropping replies
-/

theorem dropScheduled_pays (hP : Lasting A P) (key : Key) (cleared : Bool)
    (scheduled : ScheduledFuture)
    (hw : Book [] (owes scheduled.reply) none P w) :
    wp (deliveryDiscipline V A) (scheduled.drop key cleared)
      (fun _ => Clean P) (Clean P) w := by
  have huser : Keeps (deliveryDiscipline V A) (Clean P) (Clean P)
      (callUser (.replyDrop key cleared)) := hP.callUser _ rfl
  rcases scheduled with ⟨future, returned⟩
  cases future with
  | completeReply reply =>
      cases reply with
      | none => exact huser w hw
      | some reply =>
          apply wp.seq (drop_pays hP hw rfl)
          intro _ w hw
          exact huser w hw
  | finishStream finalTx =>
      cases finalTx with
      | false => exact huser w hw
      | true =>
          exact Keeps.onExit huser (hP.callUser .finalSend rfl)
            (hP.callUser .finalSend rfl) w hw

theorem removeReply_owed (hP : Lasting A P) (key : Key) (hw : Clean P w) :
    wp (deliveryDiscipline V A) (sched (.remove key))
      (fun removed =>
        Book [] (owes (removed.bind ScheduledFuture.reply)) none P) Y w := by
  apply wp.op hP.book hw
  intro w hinv hw
  refine ⟨trivial, ?_⟩
  intro input w' removed _ hexec _
  have hlast := hP.op (.sched (.remove key)) input w w' removed rfl hinv hexec
    hw.right
  rcases w.sched.remove_holds key with ⟨hgone, hothers⟩
  have htakes := hw.left.takes hgone hothers
  cases hexec
  exact ⟨htakes, hlast⟩

theorem removeKey_pays (hP : Lasting A P) (key : Key) :
    Keeps (deliveryDiscipline V A) (Clean P) Y (Queue.remove key) := by
  intro w hw
  apply wp.seq (removeReply_owed hP key hw)
  intro removed w hw
  cases removed with
  | none => exact wp.pure hw
  | some scheduled =>
      apply wp.bind
      apply wp.attempt
      apply wp.mono _ _ (dropScheduled_pays hP key false scheduled hw)
      · intro _ w hw
        exact hw
      · intro w hw
        exact hP.sound.containPanic hw

theorem completeKey_pays (hP : Lasting A P) (key : Key) :
    Keeps (deliveryDiscipline V A) (Clean P) Y (Queue.complete key) :=
  Keeps.bind (removeKey_pays hP key) fun _ =>
    Keeps.bind (hP.sched .held rfl) fun _ =>
      Keeps.onlyIf (hP.sched .forceRelease rfl)

theorem drainReply (hP : Lasting A P) (hw : Clean P w) :
    wp (deliveryDiscipline V A) (sched .drain)
      (fun entry w =>
        match entry with
        | none => Clean P w ∧ NoReplies w
        | some (_, scheduled) => Book [] (owes scheduled.reply) none P w)
      Y w := by
  apply wp.op hP.book hw
  intro w hinv hw
  refine ⟨trivial, ?_⟩
  intro input w' entry _ hexec _
  have hlast := hP.op (.sched .drain) input w w' entry rfl hinv hexec hw.right
  cases hexec
  cases hentry : w.sched.drain.2 with
  | none =>
      rcases Sched.drain_none hentry with ⟨hempty, hsame⟩
      have hdrained : (SchedOp.drain.exec w.sched).1 = w.sched := hsame
      simp only [SchedOp.exec, hentry]
      rw [hdrained] at hlast
      rw [hsame]
      exact ⟨⟨hw.left, hlast⟩, hempty⟩
  | some entry =>
      rcases entry with ⟨key, scheduled⟩
      rcases Sched.drain_some hentry with ⟨hget, hremoved⟩
      rcases w.sched.remove_holds key with ⟨hgone, hothers⟩
      have htakes := hw.left.takes hgone hothers
      unfold Sched.holds at htakes
      rw [hget, ← hremoved] at htakes
      simp only [SchedOp.exec, hentry]
      exact ⟨htakes, hlast⟩

theorem emptyQueue_pays (hP : Lasting A P) (cleared : Bool)
    {boundary : Loac.P V Unit -> Loac.P V Unit}
    (hboundary : forall (p : Loac.P V Unit) (w : World V),
      wp (deliveryDiscipline V A) p (fun _ => Clean P) (Clean P) w ->
        wp (deliveryDiscipline V A) (boundary p) (fun _ => Clean P) Y w)
    (hw : Clean P w) :
    wp (deliveryDiscipline V A)
      (do
        Prog.iter () fun _ => do
          match ← sched .drain with
          | some (key, scheduled) =>
              boundary (scheduled.drop key cleared)
              Prog.again ()
          | none => Prog.done ()
        sched .forceRelease)
      (fun _ w => Clean P w ∧ NoReplies w) Y w := by
  apply wp.seq (R := fun _ w => Clean P w ∧ NoReplies w)
  · apply wp.iter (fun _ => Clean P) hw
    intro _ w hw
    apply wp.seq (drainReply hP hw)
    intro entry w hw
    cases entry with
    | none => exact wp.done hw
    | some entry =>
        apply wp.seq (hboundary _ w
          (dropScheduled_pays hP entry.1 cleared entry.2 hw))
        intro _ w hw
        exact wp.again hw
  · intro _ w hw
    have hrelease : Keeps (deliveryDiscipline V A)
        (Clean (fun w => P w ∧ NoReplies w)) Y (sched .forceRelease) :=
      (hP.and noReplies_enduring.lasting).sched .forceRelease rfl
    apply wp.mono _ (fun _ hY => hY)
      (hrelease w ⟨hw.left.left, hw.left.right, hw.right⟩)
    intro _ w hw
    exact ⟨⟨hw.left, hw.right.left⟩, hw.right.right⟩

theorem clearQueue_pays (hP : Lasting A P) (hw : Clean P w) :
    wp (deliveryDiscipline V A) Queue.clear
      (fun _ w => Clean P w ∧ NoReplies w) Y w := by
  apply emptyQueue_pays hP true _ hw
  intro p w hp
  apply wp.bind
  apply wp.attempt
  apply wp.mono _ _ hp
  · intro _ w hw
    exact hw
  · intro w hw
    exact hP.sound.containPanic hw

theorem dropQueue_pays (hP : Lasting A P) (hw : Clean P w) :
    wp (deliveryDiscipline V A) Queue.drop
      (fun _ w => Clean P w ∧ NoReplies w) Y w := by
  apply emptyQueue_pays hP false _ hw
  intro p w hp
  apply wp.bind
  apply wp.attempt
  apply wp.mono _ _ hp
  · intro _ w hw
    exact hw
  · intro w hw
    exact hw

/-!
## The scheduler
-/

theorem findReply (hP : Lasting A P) (key : Key) (hw : Clean P w) :
    wp (deliveryDiscipline V A) (sched (.find key))
      (fun found => Clean (fun w => P w ∧ forall scheduled,
        found = some scheduled ->
          (exists finalTx, scheduled.future = .finishStream finalTx) ->
            Mute key w)) Y w := by
  apply wp.op hP.book hw
  intro w hinv hw
  refine ⟨trivial, ?_⟩
  intro input w' found _ hexec _
  cases hexec
  refine ⟨hw.left, hw.right, ?_⟩
  intro scheduled hfound hstream
  rcases hstream with ⟨finalTx, hfuture⟩
  have hget : w.sched.items.get? key = some scheduled := hfound
  show (w.sched.items.get? key).bind ScheduledFuture.reply = none
  rw [hget]
  show scheduled.reply = none
  unfold ScheduledFuture.reply
  rw [hfuture]

theorem Lasting.found (hP : Lasting A P) (key : Key)
    (found : Option ScheduledFuture) :
    Lasting A (fun w => P w ∧ forall scheduled, found = some scheduled ->
      (exists finalTx, scheduled.future = .finishStream finalTx) ->
        Mute key w) := by
  apply hP.and
  exact {
    env := fun e w w' hinv henv hw scheduled hfound hstream =>
      (mute_lasting key).env e w w' hinv henv (hw scheduled hfound hstream)
    op := fun op input w w' a hmoves hinv hexec hw scheduled hfound hstream =>
      (mute_lasting key).op op input w w' a hmoves hinv hexec
        (hw scheduled hfound hstream) }

theorem pollFound (hP : Lasting A P) {key : Key} {scheduled : ScheduledFuture}
    (hw : Clean (fun w => P w ∧ forall found,
      some scheduled = some found ->
        (exists finalTx, found.future = .finishStream finalTx) ->
          Mute key w) w) :
    wp (deliveryDiscipline V A) (scheduled.pollWithTask key)
      (fun _ => Clean P) (Clean P) w := by
  have hpolled := pollWithTask_pays (hP.found key (some scheduled)) key
    scheduled (fun w hw hstream => hw.right scheduled rfl hstream) hw
  exact wp.mono (fun _ _ hw => ⟨hw.left, hw.right.left⟩)
    (fun _ hw => ⟨hw.left, hw.right.left⟩) hpolled

theorem pollLeased_pays (hP : Lasting A P) (turn : TurnContext) (key : Key) :
    Keeps (deliveryDiscipline V A) (Clean P) (Clean P)
      (Queue.pollLeased turn key) := by
  intro w hw
  apply wp.seq (findReply hP key hw)
  intro found w hw
  cases found with
  | none =>
      apply wp.seq (hP.sched .forceRelease rfl w ⟨hw.left, hw.right.left⟩)
      intro _ w hw
      exact wp.pure hw
  | some scheduled =>
      apply wp.seq ((hP.found key (some scheduled)).sched (.takeReady key) rfl
        w hw)
      intro ready w hw
      cases ready with
      | false => exact wp.pure ⟨hw.left, hw.right.left⟩
      | true =>
          apply wp.seq (pollFound hP hw)
          intro ready w hw
          apply wp.seq (hP.sched .held rfl w hw)
          intro held w hw
          apply wp.seq (hP.sound.differs _ w hw)
          intro differs w hw
          cases differs with
          | true => exact wp.pure hw
          | false =>
              cases ready with
              | true =>
                  apply wp.seq (completeKey_pays hP key w hw)
                  intro _ w hw
                  exact wp.pure hw
              | false =>
                  exact Keeps.ite (Keeps.pure _) (Keeps.pure _) w hw

theorem drainQueue_pays (hP : Lasting A P) (turn : TurnContext) :
    Keeps (deliveryDiscipline V A) (Clean P) (Clean P)
      (Queue.drain turn) := by
  apply Keeps.iter
  intro state
  refine Keeps.ite ?_ (Keeps.done _)
  refine Keeps.bind (hP.sound.differs _) fun differs => ?_
  apply Keeps.ite (Keeps.done _)
  refine Keeps.bind (hP.sched .popReady rfl) fun key => ?_
  cases key with
  | none => exact Keeps.done _
  | some key =>
      intro w hw
      apply wp.seq (findReply hP key hw)
      intro found w hw
      cases found with
      | none => exact wp.again ⟨hw.left, hw.right.left⟩
      | some scheduled =>
          apply wp.seq ((hP.found key (some scheduled)).sched (.takeReady key)
            rfl w hw)
          intro ready w hw
          cases ready with
          | false => exact wp.again ⟨hw.left, hw.right.left⟩
          | true =>
              apply wp.seq (pollFound hP hw)
              intro ready w hw
              cases ready with
              | true =>
                  apply wp.seq (completeKey_pays hP key w hw)
                  intro _ w hw
                  exact wp.again hw
              | false =>
                  apply wp.seq (hP.sched .held rfl w hw)
                  intro held w hw
                  cases held with
                  | some _ => exact wp.done hw
                  | none => exact wp.again hw

theorem pollQueue_pays (hP : Lasting A P) (turn : TurnContext) :
    Keeps (deliveryDiscipline V A) (Clean P) (Clean P) (Queue.poll turn) := by
  refine Keeps.bind (hP.sched .held rfl) fun held => ?_
  cases held with
  | some key => exact pollLeased_pays hP turn key
  | none =>
      refine Keeps.bind (drainQueue_pays hP turn) fun completed => ?_
      cases completed with
      | none => exact Keeps.pure _
      | some completed =>
          refine Keeps.bind (hP.sound.differs _) fun differs => ?_
          apply Keeps.ite (Keeps.pure _)
          refine Keeps.bind (hP.sched _ rfl) fun empty => ?_
          apply Keeps.ite
          · exact Keeps.ite (Keeps.pure _) (Keeps.pure _)
          · exact Keeps.bind hP.sound.wakeTask (fun _ => Keeps.pure _)

end Loac

import Loac.Delivery.Dispatch

/-!
# Turns

Between two envelopes of a batch the mode is looked at, so an envelope is only
taken when everything before it was decided in time.
-/

namespace Loac

open Interleave

variable {V α : Type} {A : ActorConfig} {w w' : World V}
  {P Q : World V -> Prop} {Y : World V -> Prop}

/-!
## Waiting with clean books
-/

theorem Lasting.idle (hP : Lasting A P) :
    Idle (deliveryDiscipline V A) (Clean P) where
  toSteady := hP.sound.toSteady
  suspend := by
    intro site w hinv hw
    refine ⟨hw.left, ?_⟩
    intro input w' a _ hexec _
    have hexec' : (Op.suspend site).exec A input w = some (w', a) := hexec
    have hw' : Clean P w' :=
      ⟨hw.left.op_step rfl hexec',
        hP.op (.suspend site) input w w' a rfl hinv hexec' hw.right⟩
    exact ⟨fun _ => hw', fun _ => hw'⟩

theorem Lasting.pollUser (hP : Lasting A P) (site : UserSite)
    (hbooks : (Op.user site : Op V _).books = false) :
    Keeps (deliveryDiscipline V A) (Clean P) (Clean P) (Loac.pollUser site) :=
  Keeps.pollUser (hP.runUser site hbooks)

/-- Waiting for user code outside of replies keeps the books. -/
theorem Lasting.await (hP : Lasting A P) (site : Site)
    (pollSite dropSite : UserSite)
    (hpoll : (Op.user pollSite : Op V _).books = false)
    (hdrop : (Op.user dropSite : Op V _).books = false) (hw : Clean P w) :
    wp (deliveryDiscipline V A)
      (awaitActorWork site () (fun _ => Loac.pollUser pollSite)
        (Loac.callUser dropSite))
      (Sound.Worked (Clean P) (fun _ => Clean P)) Y w := by
  have hhard : Lasting (V := V) A (fun w => P w ∧ Hard w) :=
    hP.and hard_enduring.lasting
  apply hP.sound.awaitKept site pollSite hP.idle (hP.pollUser pollSite hpoll)
    (hP.callUser dropSite hdrop) _ hw
  intro w hw
  have hkept := hhard.callClean dropSite hdrop w
    ⟨hw.left.left, hw.left.right, hw.right⟩
  apply wp.mono _ _ hkept
  · intro _ w hw
    exact ⟨⟨hw.left, hw.right.left⟩, hw.right.right⟩
  · intro w hw
    exact ⟨⟨hw.left, hw.right.left⟩, hw.right.right⟩

/-!
## The mailbox lane
-/

theorem punctual_lasting :
    Lasting A (fun w : World V => w.mail.Punctual) where
  env := by
    intro e w w' _ henv hw e' hmem
    rcases EnvAct.grows_exec henv with ⟨hgrows, hattempted, _⟩
    rw [hattempted] at hmem
    exact (hw e' hmem).mono hgrows
  op := by
    intro α op input w w' a hmoves _ hexec hw e' hmem
    rw [(Op.stays_exec hmoves hexec).attempted] at hmem
    exact (hw e' hmem).mono (Op.grows_exec hexec)

/-- Everything that was taken for dispatch was decided in time. -/
abbrev Prompt (Q : World V -> Prop) (w : World V) : Prop :=
  Served Q w ∧ w.mail.Punctual

theorem prompt_lasting (hQ : Enduring A Q) : Lasting A (Prompt Q) :=
  (served_lasting hQ).and punctual_lasting

def Mode.dispatches : Mode -> Bool
  | .running => true
  | .draining => true
  | _ => false

theorem differs_prompt (hQ : Enduring A Q) {expected : Mode}
    (hexpected : expected.dispatches = true) (hw : Clean (Served Q) w) :
    wp (deliveryDiscipline V A) (differs expected)
      (fun differs w => Clean (Served Q) w ∧
        (differs = false -> Clean (Prompt Q) w)) Y w := by
  have hserved := served_lasting hQ
  apply wp.op hserved.book hw
  intro w _ hw
  refine ⟨trivial, ?_⟩
  intro input w' differs _ hexec _
  cases hexec
  refine ⟨hw, ?_⟩
  intro hsame
  have hmode : w.control.mode = expected := by
    simpa using hsame
  refine ⟨hw.left, hw.right, hw.right.left.right.resolve_right ?_⟩
  intro hcut
  unfold Cut at hcut
  rw [hmode] at hcut
  cases expected with
  | running => exact hcut.left rfl
  | draining => exact hcut.right rfl
  | _ => cases hexpected

/-- The inbox was looked at, which registers the task at most. -/
structure Looked (w w' : World V) : Prop where
  control : w'.control = w.control
  sched : w'.sched = w.sched
  mail : exists waker, w'.mail = { w.mail with waker := waker }

theorem Looked.balanced {hand : List Envelope} {debt : Debt}
    {value : Option (Nat × V)} (h : Looked w w') (hbook : Balanced hand debt value w) :
    Balanced hand debt value w' := by
  rcases h.mail with ⟨waker, hmail⟩
  apply hbook.undisturbed
  · rw [h.control]
    exact hbook.mode
  · exact {
      inHand := by rw [hmail]
      admitted := by rw [hmail]; exact fun _ hmem => Or.inl hmem
      queue := by rw [hmail]; exact fun _ hmem => hmem
      dispatched := by rw [hmail]
      rejected := by rw [hmail]
      completed := by rw [hmail]
      returned := by rw [hmail]
      responses := by rw [hmail]
      holds := fun _ => by rw [h.sched]
      committed := by rw [h.control]; exact fun _ hmem => hmem }

theorem Looked.serving (h : Looked w w') (hserving : Serving w) :
    Serving w' := by
  rcases h.mail with ⟨waker, hmail⟩
  unfold Serving Cut
  rw [hmail, h.control]
  exact hserving

theorem pollRecv_takes (hQ : Enduring A Q) (turn : TurnContext)
    (hw : Clean (Prompt Q) w) :
    wp (deliveryDiscipline V A) (mail (.pollRecv turn))
      (fun received w =>
        match received with
        | .envelope e => Holding e Q w
        | .closed => Clean (Served (fun w => Q w ∧ Emptied w)) w
        | .pending => Clean (Served Q) w)
      Y w := by
  apply wp.op (prompt_lasting hQ).book hw
  intro w hinv hw
  rcases hw with ⟨hbook, ⟨hserving, hQw⟩, hpunctual⟩
  refine ⟨⟨hserving.left, hbook.inHand, hpunctual⟩, ?_⟩
  intro input w' received _ hexec _
  have hQ' := hQ.op (.mail (.pollRecv turn)) input w w' received rfl hinv hexec
    hQw
  have hmail : w'.mail = (w.mail.pollRecv (A.mailbox.getD .unbounded)
      input.reception).1 ∧ (w.mail.pollRecv (A.mailbox.getD .unbounded)
      input.reception).2 = received := by
    cases hexec
    exact ⟨rfl, rfl⟩
  have hsame : w'.control = w.control ∧ w'.sched = w.sched := by
    cases hexec
    exact ⟨rfl, rfl⟩
  cases received with
  | envelope e =>
      rcases Mail.pollRecv_envelope hmail.right with ⟨rest, hqueue, htaken⟩
      rw [htaken] at hmail
      refine ⟨?_, ⟨?_, ?_⟩, hQ'⟩
      · exact {
          mode := hsame.left ▸ hbook.mode
          inHand := by
            rw [hmail.left]
            show e :: w.mail.hand = [e]
            rw [hbook.inHand]
          owned := by
            intro e' hmem hkind
            rw [hmail.left] at hmem ⊢
            rw [hsame.right]
            rcases hbook.owned e' hmem hkind with
              hanswered | hold | hhand | hkey | hdebt
            · exact Or.inl hanswered
            · rw [hqueue] at hold
              cases List.mem_cons.mp hold with
              | inl heq =>
                  rw [heq]
                  exact Or.inr (Or.inr (Or.inl (List.mem_cons_self ..)))
              | inr hrest => exact Or.inr (Or.inl hrest)
            · cases hhand
            · exact Or.inr (Or.inr (Or.inr (Or.inl hkey)))
            · cases hdebt
          held := by
            intro key reply hkey
            rw [hsame.right] at hkey
            rw [hmail.left]
            have hbacked := hbook.held key reply hkey
            cases reply with
            | caller id => exact hbacked
            | oneWay id => exact hbacked
          distinct := by
            rw [hsame.right]
            exact hbook.distinct
          owed := trivial
          delivered := by
            unfold Hardened
            rw [hmail.left, hsame.left]
            exact hbook.delivered }
      · rw [hmail.left]
        exact hserving.left
      · intro e' hmem hne
        rw [hmail.left] at hmem ⊢
        cases List.mem_append.mp hmem with
        | inl hold => exact (hpunctual e' hold).mono { Mail.Grows.refl _ with }
        | inr hnew => exact absurd (List.mem_singleton.mp hnew) hne
  | closed =>
      rcases Mail.pollRecv_closed hmail.right with ⟨hkept, hqueue, hshut, _⟩
      rw [hkept] at hmail
      have hclosing : Closing w := hinv.closed hshut
      have hlooked : Looked w w' :=
        ⟨hsame.left, hsame.right, w.mail.waker, hmail.left⟩
      refine ⟨hlooked.balanced hbook, hlooked.serving hserving, hQ', ?_, ?_⟩
      · unfold Closing
        rw [hsame.left]
        exact hclosing
      · rw [hmail.left]
        exact hqueue
  | pending =>
      have hgives : forall e, (w.mail.pollRecv (A.mailbox.getD .unbounded)
          input.reception).2 ≠ .envelope e := by
        intro e heq
        rw [hmail.right] at heq
        cases heq
      rcases Mail.pollRecv_idle hgives with ⟨waker, hidle⟩
      rw [hidle] at hmail
      have hlooked : Looked w w' := ⟨hsame.left, hsame.right, waker, hmail.left⟩
      exact ⟨hlooked.balanced hbook, hlooked.serving hserving, hQ'⟩

def SchedulerTurn.Empties (w : World V) : SchedulerTurn -> Prop
  | .inboxClosed => Emptied w
  | _ => True

def Visit.Empties (w : World V) : Visit -> Prop
  | .selected turn => turn.Empties w
  | .leave (some turn) => turn.Empties w
  | .leave none => True
  | .nothing => True

theorem hasDispatchCapacity_keeps (hP : Lasting A P) :
    Keeps (deliveryDiscipline V A) (Clean P) Y (hasDispatchCapacity A) :=
  Keeps.bind (Keeps.bind (hP.sched .held rfl) (fun _ => Keeps.pure _)) fun _ =>
    Keeps.bind (hP.sched .length rfl) (fun _ => Keeps.pure _)

theorem hasReplies_keeps (hP : Lasting A P) :
    Keeps (deliveryDiscipline V A) (Clean P) Y (hasReplies : Loac.P V Bool) :=
  Keeps.bind (hP.sched .isEmpty rfl) (fun _ => Keeps.pure _)

theorem mailboxLane_pays (hQ : Detached A Q) {turn : TurnContext}
    (hexpected : turn.expectedMode.dispatches = true) (start : ReplyLane)
    (hw : Clean (Prompt Q) w) :
    wp (deliveryDiscipline V A) (mailboxLane A turn start)
      (fun visit w => Clean (Served Q) w ∧ visit.Empties w)
      (Clean (Served Q)) w := by
  have hserved := served_lasting hQ.toEnduring
  apply wp.iter (fun _ => Clean (Prompt Q)) hw
  intro dispatched w hw
  apply wp.seq (pollRecv_takes hQ.toEnduring turn hw)
  intro received w hw
  cases received with
  | envelope e =>
      apply wp.seq (dispatch_pays hQ hw)
      intro _ w hw
      apply wp.seq (differs_prompt hQ.toEnduring hexpected hw)
      intro differs w hw
      cases differs with
      | true =>
          apply wp.seq (hserved.sched (.setCursor ReplyLane.mailbox.next) rfl w
            hw.left)
          intro _ w hw
          exact wp.done ⟨hw, trivial⟩
      | false =>
          have hprompt := hw.right rfl
          by_cases hbudget : dispatched + 1 = A.mailboxDispatchBudget
          · simp only [if_pos hbudget]
            exact wp.done ⟨hw.left, trivial⟩
          · simp only [if_neg hbudget]
            apply wp.seq (hasDispatchCapacity_keeps
              (prompt_lasting hQ.toEnduring) w hprompt)
            intro capacity w hw
            cases capacity with
            | true => exact wp.again hw
            | false => exact wp.done ⟨⟨hw.left, hw.right.left⟩, trivial⟩
  | closed =>
      exact wp.done ⟨⟨hw.left, hw.right.left, hw.right.right.left⟩,
        hw.right.right.right⟩
  | pending =>
      by_cases hstart : dispatched > 0 ∧ start = .reply
      · simp only [if_pos hstart]
        apply wp.seq (hasReplies_keeps hserved w hw)
        intro replies w hw
        cases replies with
        | true => exact wp.done ⟨hw, trivial⟩
        | false => exact wp.done ⟨hw, trivial⟩
      · simp only [if_neg hstart]
        exact wp.done ⟨hw, trivial⟩

/-!
## The other lanes
-/

theorem replyLane_pays (hP : Lasting A P) (turn : TurnContext)
    (hw : Clean P w) :
    wp (deliveryDiscipline V A) (replyLane turn)
      (fun visit w => Clean P w ∧ visit.Empties w) (Clean P) w := by
  apply wp.seq (pollQueue_pays hP turn w hw)
  intro result w hw
  cases result with
  | pending => exact wp.pure ⟨hw, trivial⟩
  | progress => exact wp.pure ⟨hw, trivial⟩
  | leased => exact wp.pure ⟨hw, trivial⟩
  | budgetExhausted =>
      apply wp.seq (hP.sched (.setCursor ReplyLane.reply.next) rfl w hw)
      intro _ w hw
      exact wp.pure ⟨hw, trivial⟩

theorem pollChild_keeps (hP : Lasting A P) (hw : Clean P w) :
    wp (deliveryDiscipline V A) pollChild
      (fun result w => Clean P w ∧
        forall turn, result = some turn -> turn.Empties w) Y w := by
  apply wp.seq (hP.kin .pollExit w hw)
  intro event w hw
  cases event with
  | none => exact wp.pure ⟨hw, fun _ heq => by cases heq⟩
  | some event =>
      refine wp.pure ⟨hw, fun turn heq => ?_⟩
      cases heq
      trivial

theorem visit_pays (hQ : Detached A Q) {turn : TurnContext}
    (hexpected : turn.expectedMode.dispatches = true)
    (start lane : ReplyLane) (hw : Clean (Prompt Q) w) :
    wp (deliveryDiscipline V A) (visit A turn start lane)
      (fun visit w => Clean (Served Q) w ∧ visit.Empties w)
      (Clean (Served Q)) w := by
  have hserved := served_lasting hQ.toEnduring
  have hprompt := prompt_lasting hQ.toEnduring
  have hweak : Clean (Served Q) w := ⟨hw.left, hw.right.left⟩
  cases lane with
  | mailbox =>
      apply wp.seq (hasDispatchCapacity_keeps hprompt w hw)
      intro capacity w hw
      cases hreceive : turn.receiveMessages && capacity with
      | true => exact mailboxLane_pays hQ hexpected start hw
      | false => exact wp.pure ⟨⟨hw.left, hw.right.left⟩, trivial⟩
  | reply =>
      apply wp.seq (hasReplies_keeps hserved w hweak)
      intro replies w hw
      cases replies with
      | true => exact replyLane_pays hserved turn hw
      | false => exact wp.pure ⟨hw, trivial⟩
  | childExit =>
      apply wp.seq (pollChild_keeps hserved hweak)
      intro result w hw
      cases result with
      | some turn => exact wp.pure ⟨hw.left, hw.right turn rfl⟩
      | none => exact wp.pure ⟨hw.left, trivial⟩

def PollEmpties (w : World V) : Poll SchedulerTurn -> Prop
  | some turn => turn.Empties w
  | none => True

theorem empties_lasting (turn : SchedulerTurn) :
    Lasting A (fun w : World V => turn.Empties w) := by
  cases turn with
  | inboxClosed => exact emptied_enduring.lasting
  | _ => exact Enduring.true.lasting

theorem pollLanes_pays (hQ : Detached A Q) {turn : TurnContext}
    (hexpected : turn.expectedMode.dispatches = true) (start : ReplyLane)
    (hw : Clean (Served Q) w) :
    wp (deliveryDiscipline V A) (pollLanes A turn start)
      (fun result w => Clean (Served Q) w ∧ PollEmpties w result)
      (Clean (Served Q)) w := by
  have hserved := served_lasting hQ.toEnduring
  apply wp.iter (fun _ => Clean (Served Q)) hw
  intro lane w hw
  apply wp.seq (differs_prompt hQ.toEnduring hexpected hw)
  intro differs w hw
  cases differs with
  | true => exact wp.done ⟨hw.left, trivial⟩
  | false =>
      apply wp.seq (visit_pays hQ hexpected start lane (hw.right rfl))
      intro visit w hw
      cases visit with
      | leave result =>
          cases result with
          | some turn => exact wp.done hw
          | none => exact wp.done ⟨hw.left, trivial⟩
      | selected selected =>
          have hkept := hserved.and (empties_lasting (A := A) selected)
          apply wp.seq (hkept.sched (.setCursor lane.next) rfl w
            ⟨hw.left.left, hw.left.right, hw.right⟩)
          intro _ w hw
          exact wp.done ⟨⟨hw.left, hw.right.left⟩, hw.right.right⟩
      | nothing =>
          by_cases hlane : lane.next = start
          · simp only [if_pos hlane]
            apply wp.seq (hserved.sched (.setCursor start.next) rfl w hw.left)
            intro _ w hw
            exact wp.done ⟨hw, trivial⟩
          · simp only [if_neg hlane]
            exact wp.again hw.left

theorem pollTurn_pays (hQ : Detached A Q) {turn : TurnContext}
    (hexpected : turn.expectedMode.dispatches = true)
    (hw : Clean (Served Q) w) :
    wp (deliveryDiscipline V A) (pollTurn A turn)
      (fun result w => Clean (Served Q) w ∧ PollEmpties w result)
      (Clean (Served Q)) w := by
  have hserved := served_lasting hQ.toEnduring
  unfold pollTurn
  cases A.mailbox with
  | none =>
      apply wp.seq (hserved.sound.differs _ w hw)
      intro differs w hw
      cases differs with
      | true => exact wp.pure ⟨hw, trivial⟩
      | false =>
          apply wp.mono _ (fun _ hX => hX) (pollChild_keeps hserved hw)
          intro result w hw
          refine ⟨hw.left, ?_⟩
          cases result with
          | none => trivial
          | some turn => exact hw.right turn rfl
  | some _ =>
      apply wp.seq (hserved.sound.differs _ w hw)
      intro differs w hw
      cases differs with
      | true => exact wp.pure ⟨hw, trivial⟩
      | false =>
          have hleased : Keeps (deliveryDiscipline V A) (Clean (Served Q))
              (Clean (Served Q)) (Queue.isLeased : Loac.P V Bool) :=
            Keeps.bind (hserved.sched .held rfl) (fun _ => Keeps.pure _)
          apply wp.seq (hleased w hw)
          intro leased w hw
          cases leased with
          | true =>
              apply wp.seq (pollQueue_pays hserved turn w hw)
              intro result w hw
              cases result <;> exact wp.pure ⟨hw, trivial⟩
          | false =>
              apply wp.seq (hserved.sched .cursor rfl w hw)
              intro start w hw
              exact pollLanes_pays hQ hexpected start hw

/-!
## Actor turns
-/

theorem actorTurn_pays (hQ : Detached A Q) {turn : TurnContext}
    (hexpected : turn.expectedMode.dispatches = true)
    (hw : Clean (Served Q) w) :
    wp (deliveryDiscipline V A) (actorTurn A turn)
      (fun result w => Clean (Served Q) w ∧ result.Empties w)
      (Clean (Served Q)) w := by
  have hserved := served_lasting hQ.toEnduring
  have hresult : forall result : SchedulerTurn, Idle (deliveryDiscipline V A)
      (Clean (fun w => Served Q w ∧ result.Empties w)) :=
    fun result => (hserved.and (empties_lasting result)).idle
  have hpoll : forall (_ : Unit) (w : World V), Clean (Served Q) w ->
      wp (deliveryDiscipline V A) (pollOnce (pollTurn A turn) ())
        (Sound.Splits (fun _ : Unit => Clean (Served Q))
          (fun result => Clean (fun w => Served Q w ∧ result.Empties w)))
        (Clean (Served Q)) w := by
    intro _ w hw
    apply wp.seq (pollTurn_pays hQ hexpected hw)
    intro result w hw
    cases result with
    | none => exact wp.pure hw.left
    | some turn => exact wp.pure ⟨hw.left.left, hw.left.right, hw.right⟩
  apply wp.seq (Sound.select (.turn turn.expectedMode) () (fun _ => hserved.idle) hresult
    hserved.idle hpoll hw)
  intro result w hw
  cases result with
  | inl _ => exact wp.pure ⟨hw, trivial⟩
  | inr turn => exact wp.pure ⟨⟨hw.left, hw.right.left⟩, hw.right.right⟩

end Loac

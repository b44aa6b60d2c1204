import Loac.Delivery.Lasting

/-!
# Paying debts

A reply is owed a response from the moment it leaves its place until the
response is sent.  Every way to answer it pays the debt with the truth.
-/

namespace Loac

open Interleave

variable {V α : Type} {A : ActorConfig} {w w' : World V}
  {hand : List Envelope} {debt : Debt} {value : Option (Nat × V)}
  {P : World V -> Prop} {Y : World V -> Prop}

/-- Balanced books, next to which something else is known. -/
abbrev Book (hand : List Envelope) (debt : Debt) (value : Option (Nat × V))
    (P : World V -> Prop) (w : World V) : Prop :=
  Balanced hand debt value w ∧ P w

abbrev Clean (P : World V -> Prop) (w : World V) : Prop :=
  Book [] .nobody none P w

/-!
## Operations that leave the books alone
-/

namespace Lasting

theorem book (hP : Lasting A P) :
    (deliveryDiscipline V A).Stable (Book hand debt value P) :=
  balanced_stable.and hP.stable

theorem quiet (hP : Lasting A P) {op : Op V α} (hbooks : op.books = false)
    (hdemands : forall w, DeliveryDemands op w) :
    SoundAt (deliveryDiscipline V A) op (Book hand debt value P)
      (Book hand debt value P) := by
  intro w hinv hw
  refine ⟨hdemands w, ?_⟩
  intro input w' a _ hexec _
  have hw' : Book hand debt value P w' :=
    ⟨hw.left.op_step hbooks hexec,
      hP.op op input w w' a (Op.moves_of_books hbooks) hinv hexec hw.right⟩
  exact ⟨fun _ => hw', fun _ => hw'⟩

theorem perform (hP : Lasting A P) (op : Op V α) (hbooks : op.books = false)
    (hdemands : forall w, DeliveryDemands op w)
    (hblamed : forall a, op.blamed a = false) :
    Keeps (deliveryDiscipline V A) (Book hand debt value P) Y
      (Prog.perform op) :=
  (hP.quiet hbooks hdemands).perform hP.book hblamed

theorem sched (hP : Lasting A P) (op : SchedOp α)
    (hbooks : (Op.sched op : Op V α).books = false) :
    Keeps (deliveryDiscipline V A) (Book hand debt value P) Y
      (Loac.sched op) :=
  hP.perform _ hbooks (fun _ => trivial) (fun _ => rfl)

theorem kin (hP : Lasting A P) (op : KinOp α) :
    Keeps (deliveryDiscipline V A) (Book hand debt value P) Y
      (Loac.kin op) :=
  hP.perform _ rfl (fun _ => trivial) (fun _ => rfl)

/-- The layers that look at flags and contain panics keep the books. -/
theorem sound (hP : Lasting A P) :
    Sound (deliveryDiscipline V A) 0 (Book hand debt value P)
      (Book hand debt value P) where
  stable := hP.book
  stableUnwound := hP.book
  weaken := fun _ hw => hw
  op := by
    intro α op hlevel
    cases op with
    | mode => exact hP.quiet rfl (fun _ => trivial)
    | differs expected => exact hP.quiet rfl (fun _ => trivial)
    | pollNotified => exact hP.quiet rfl (fun _ => trivial)
    | dropNotified => exact hP.quiet rfl (fun _ => trivial)
    | wakeTask => exact hP.quiet rfl (fun _ => trivial)
    | transact t =>
        cases t with
        | beginFailure => exact hP.quiet rfl (fun _ => trivial)
        | _ => cases hlevel
    | sched op =>
        cases op with
        | setCursor lane => exact hP.quiet rfl (fun _ => trivial)
        | _ => cases hlevel
    | mail op => cases op <;> cases hlevel
    | kin op => cases op <;> cases hlevel
    | user site => exact absurd site.level_pos (Nat.not_lt.mpr hlevel)
    | _ => cases hlevel
  contain := by
    intro w hinv hw
    have hop : SoundAt (deliveryDiscipline V A) (.transact .beginFailure)
        (Book hand debt value P) (Book hand debt value P) :=
      hP.quiet rfl (fun _ => trivial)
    have hop := hop w hinv hw
    exact ⟨hop.left, fun input w' hadmits hexec hinv' =>
      (hop.right input w' () hadmits hexec hinv').left rfl⟩

theorem runUser (hP : Lasting A P) (site : UserSite)
    (hbooks : (Op.user site : Op V _).books = false) :
    Keeps (deliveryDiscipline V A) (Book hand debt value P)
      (Book hand debt value P) (Loac.runUser site) := by
  have hdemands : forall w : World V, DeliveryDemands (.user site) w := by
    intro w
    cases site with
    | replyPoll key => cases hbooks
    | _ => trivial
  exact (hP.quiet hbooks hdemands).runUser hP.book (fun _ _ hw => hw)

theorem callUser (hP : Lasting A P) (site : UserSite)
    (hbooks : (Op.user site : Op V _).books = false) :
    Keeps (deliveryDiscipline V A) (Book hand debt value P)
      (Book hand debt value P) (Loac.callUser site) :=
  Keeps.callUser (hP.runUser site hbooks)

/-- User code between two pieces of work keeps the books empty. -/
theorem callClean (hP : Lasting A P) (site : UserSite)
    (hbooks : (Op.user site : Op V _).books = false) :
    Keeps (deliveryDiscipline V A) (Clean P) (Clean P) (Loac.callUser site) :=
  hP.callUser site hbooks

theorem dropCalled (hP : Lasting A P) (site : UserSite)
    (hbooks : (Op.user site : Op V _).books = false) :
    Keeps (deliveryDiscipline V A) (Book hand debt value P) Y
      (Loac.dropUserValue (Loac.callUser site)) :=
  hP.sound.dropUserValue (hP.callUser site hbooks)

theorem mode (hP : Lasting A P) (hw : Book hand debt value P w) :
    wp (deliveryDiscipline V A) Loac.mode
      (fun mode w => Book hand debt value P w ∧ mode = w.control.mode ∧
        mode ∈ w.control.committed ∧ mode.isExited = false) Y w := by
  apply wp.mono _ (fun _ hY => hY) (hP.sound.mode_eq hw)
  intro mode w hw
  rcases hw with ⟨⟨hinv, hw⟩, hmode⟩
  subst hmode
  exact ⟨hw, rfl, hinv.history.recorded, hw.left.mode⟩

end Lasting

/-!
## Reasons
-/

theorem queuedFailure_blames {mode : Mode} {committed : List Mode}
    (hcut : mode ≠ .running ∧ mode ≠ .draining) (hmem : mode ∈ committed)
    (hopen : mode.isExited = false) :
    exists reason, callFailureFor mode .queued = .beforeDispatch reason ∧
      Blames committed reason := by
  cases mode with
  | running => exact absurd rfl hcut.left
  | draining => exact absurd rfl hcut.right
  | stopping => exact ⟨.stopped, rfl, hmem, by simp⟩
  | killing => exact ⟨.killed, rfl, hmem, by simp⟩
  | failing => exact ⟨.panicked, rfl, hmem, by simp⟩
  | aborting => exact ⟨.aborted, rfl, hmem, by simp⟩
  | exited status => cases hopen

theorem queuedFailure_before (mode : Mode) :
    exists reason, callFailureFor mode .queued = .beforeDispatch reason :=
  ⟨_, rfl⟩

theorem dispatchingFailure_blames {mode : Mode} {committed : List Mode}
    (hhard : mode.isHard = true) (hmem : mode ∈ committed)
    (hopen : mode.isExited = false) :
    exists reason, callFailureFor mode .dispatching = .duringDispatch reason ∧
      Blames committed reason := by
  cases mode with
  | killing => exact ⟨.killed, rfl, hmem, by simp⟩
  | failing => exact ⟨.panicked, rfl, hmem, by simp⟩
  | aborting => exact ⟨.aborted, rfl, hmem, by simp⟩
  | exited status => cases hopen
  | _ => cases hhard

theorem hardened_of_hard {mode : Mode} (hhard : mode.isHard = true)
    (hmem : mode ∈ w.control.committed) (hopen : mode.isExited = false) :
    Hardened w := by
  refine ⟨mode, hmem, ?_⟩
  cases mode with
  | killing => exact Or.inl rfl
  | failing => exact Or.inr (Or.inl rfl)
  | aborting => exact Or.inr (Or.inr rfl)
  | exited status => cases hopen
  | _ => cases hhard

theorem beginCompletion_error {mode : Mode} {error : CallError}
    (h : (Loac.beginCompletion mode).2 = .error error) :
    mode.isHard = true ∧ error = callFailureFor mode .dispatching := by
  cases mode <;> first
    | (cases h; done)
    | (cases h; exact ⟨rfl, rfl⟩)

/-!
## Responses
-/

theorem Balanced.unheld (h : Balanced hand debt value w) (hinv : MailInv w)
    {id : Nat} (hcaller : debt.caller = some id) (key : Key) :
    w.sched.holds key ≠ some (.caller id) := by
  intro hkey
  rcases h.held key _ hkey with ⟨⟨e, hmem, hid, _⟩, _, hopen⟩
  have howed := h.owed
  cases debt with
  | nobody => cases hcaller
  | rejected id' =>
      cases hcaller
      rcases howed with ⟨⟨e', hmem', hid', _⟩, _⟩
      have heq := hinv.conserved.eq_of_id
        (hinv.conserved.dispatched_admitted hmem)
        (hinv.conserved.rejected_admitted hmem') (hid.trans hid'.symm)
      subst heq
      exact hinv.conserved.not_rejected hmem hmem'
  | dispatched reply =>
      cases reply with
      | caller id' =>
          cases hcaller
          exact howed.right key id rfl hkey
      | oneWay id' => cases hcaller
  | completed id' =>
      cases hcaller
      exact hopen howed.right.right

theorem Balanced.unanswered (h : Balanced hand debt value w) {id : Nat}
    (hcaller : debt.caller = some id) : ¬ w.mail.Answered id := by
  have howed := h.owed
  cases debt with
  | nobody => cases hcaller
  | rejected id' =>
      cases hcaller
      exact howed.right
  | dispatched reply =>
      cases reply with
      | caller id' =>
          cases hcaller
          exact howed.left.right.left
      | oneWay id' => cases hcaller
  | completed id' =>
      cases hcaller
      exact howed.right.left

theorem Mail.answered_respond {mail : Mail V} {id id' : Nat}
    {response : Response V} :
    (mail.respond id response).1.Answered id' <->
      id' = id ∨ mail.Answered id' := by
  simp [Mail.Answered, Mail.respond]

theorem Balanced.respond (h : Balanced hand debt value w) (hinv : MailInv w)
    {id : Nat} {response : Response V} (hcaller : debt.caller = some id)
    (hvalue : forall id' v, value = some (id', v) ->
      Hardened w ∨ (id' = id ∧ response = .ok (some v))) :
    Balanced hand .nobody none
      { w with mail := (w.mail.respond id response).1 } where
  mode := h.mode
  inHand := h.inHand
  owned := by
    intro e hmem hkind
    rcases h.owned e hmem hkind with
      hanswered | hqueue | hhand | hkey | hdebt
    · exact Or.inl (Mail.answered_respond.mpr (Or.inr hanswered))
    · exact Or.inr (Or.inl hqueue)
    · exact Or.inr (Or.inr (Or.inl hhand))
    · exact Or.inr (Or.inr (Or.inr (Or.inl hkey)))
    · rw [hcaller] at hdebt
      cases hdebt
      exact Or.inl (Mail.answered_respond.mpr (Or.inl rfl))
  held := by
    intro key reply hkey
    have hbacked := h.held key reply hkey
    cases reply with
    | oneWay id' => exact hbacked
    | caller id' =>
        refine ⟨hbacked.left, ?_, hbacked.right.right⟩
        intro hanswered
        cases Mail.answered_respond.mp hanswered with
        | inl heq =>
            subst heq
            exact h.unheld hinv hcaller key hkey
        | inr hold => exact hbacked.right.left hold
  distinct := h.distinct
  owed := trivial
  delivered := by
    intro id' v hmem
    rcases h.delivered id' v hmem with hhard | hsent | heq
    · exact Or.inl hhard
    · exact Or.inr (Or.inl (List.mem_cons_of_mem _ hsent))
    · cases hvalue id' v heq with
      | inl hhard => exact Or.inl hhard
      | inr hsent =>
          rw [hsent.left, ← hsent.right]
          exact Or.inr (Or.inl (List.mem_cons_self ..))

theorem notifyResponse_pays (hP : Lasting A P) {id : Nat}
    {response : Response V} (hcaller : debt.caller = some id)
    (htells : forall w, MailInv w -> Book hand debt value P w ->
      w.mail.Tells w.control.committed id response)
    (hvalue : forall w, P w -> forall id' v, value = some (id', v) ->
      Hardened w ∨ (id' = id ∧ response = .ok (some v)))
    (hw : Book hand debt value P w) :
    wp (deliveryDiscipline V A) (notifyResponse id response)
      (fun _ => Book hand .nobody none P) Y w := by
  apply wp.seq (R := fun _ => Book hand .nobody none P)
  · apply wp.op hP.book hw
    intro w hinv hw
    refine ⟨⟨hw.left.unanswered hcaller, htells w hinv hw⟩, ?_⟩
    intro input w' sent _ hexec _
    have hlast := hP.op (.mail (.respond id response)) input w w' sent rfl
      hinv hexec hw.right
    cases hexec
    exact ⟨hw.left.respond hinv hcaller (hvalue w hw.right), hlast⟩
  · intro sent w hw
    cases sent with
    | true =>
        exact Keeps.containUnwind (hP.callUser .responseWaker rfl) w hw
    | false =>
        cases response with
        | ok _ => exact hP.dropCalled .value rfl w hw
        | error _ => exact wp.pure hw

theorem notifyFailed_pays (hP : Lasting A P) {id : Nat} {reason : ExitReason}
    (hblames : forall w, P w -> Blames w.control.committed reason)
    (hhardened : forall w, P w -> value ≠ none -> Hardened w)
    (hw : Book hand (.dispatched (.caller id)) value P w) :
    wp (deliveryDiscipline V A)
      (notifyResponse id (.error (.duringDispatch reason)))
      (fun _ => Book hand .nobody none P) Y w := by
  apply notifyResponse_pays hP rfl _ _ hw
  · intro w _ hw
    exact ⟨hw.left.owed.left.left, hw.left.owed.left.right.right,
      hblames w hw.right⟩
  · intro w hw id' v hvalue
    apply Or.inl (hhardened w hw _)
    rw [hvalue]
    exact Option.some_ne_none _

/-!
## Completion
-/

def Mail.Earned (mail : Mail V) : DispatchReply -> Option V -> Prop
  | .caller id, some v => (id, v) ∈ mail.returned
  | .caller id, none =>
      exists e, e ∈ mail.dispatched ∧ e.id = id ∧ e.kind = .stream
  | .oneWay _, _ => True

def DispatchReply.due : DispatchReply -> Option V -> Option (Nat × V)
  | .caller id, some v => some (id, v)
  | _, _ => none

theorem Mail.Earned.mono {mail mail' : Mail V} (h : mail.Grows mail')
    {reply : DispatchReply} {response : Option V}
    (hearned : mail.Earned reply response) : mail'.Earned reply response := by
  cases reply with
  | oneWay id => trivial
  | caller id =>
      cases response with
      | some v => exact h.returned _ hearned
      | none =>
          rcases hearned with ⟨e, hmem, hid, hkind⟩
          exact ⟨e, h.dispatched e hmem, hid, hkind⟩

theorem earned_enduring (reply : DispatchReply) (response : Option V) :
    Enduring A (fun w : World V => w.mail.Earned reply response) :=
  Enduring.seen (P := fun mail => mail.Earned reply response)
    fun hgrows hearned => hearned.mono hgrows

theorem Mail.Tells.completed {mail : Mail V} {committed : List Mode} {id : Nat}
    {response : Option V} (hinv : mail.Conserved)
    (howed : (exists e, e ∈ mail.dispatched ∧ e.id = id ∧
      e.kind.hasReceiver = true) ∧ id ∈ mail.completed)
    (hearned : mail.Earned (.caller id) response) :
    mail.Tells committed id (.ok response) := by
  rcases howed with ⟨⟨e, hmem, hid, hkind⟩, hdone⟩
  refine ⟨e, hmem, hid, hkind, hdone, ?_⟩
  cases response with
  | some v => exact hearned
  | none =>
      rcases hearned with ⟨e', hmem', hid', hkind'⟩
      have heq := hinv.eq_of_id (hinv.dispatched_admitted hmem)
        (hinv.dispatched_admitted hmem') (hid.trans hid'.symm)
      rw [heq]
      exact hkind'

/-- Nobody waits for the reply of a message without a receiver. -/
theorem MailInv.oneWay_unanswered (h : MailInv w) {id : Nat}
    (hbacked : Backed w.mail (.oneWay id)) : ¬ w.mail.Answered id := by
  intro hanswered
  rcases List.mem_map.mp hanswered with ⟨⟨id', response⟩, hmem, heq⟩
  cases heq
  rcases (h.told id' response hmem).receiver h.conserved with
    ⟨e, hadmitted, hid, hkind⟩
  rcases hbacked with ⟨e', hmem', hid', hkind'⟩
  have heq := h.conserved.eq_of_id hadmitted
    (h.conserved.dispatched_admitted hmem') (hid.trans hid'.symm)
  rw [heq, hkind'] at hkind
  cases hkind

theorem Balanced.forgive {id : Nat}
    (h : Balanced hand (.dispatched (.oneWay id)) value w) :
    Balanced hand .nobody value w :=
  { h with
    owned := fun e hmem hkind =>
      (h.owned e hmem hkind).imp_right fun hrest =>
        hrest.imp_right fun hrest => hrest.imp_right fun hrest =>
          hrest.imp_right fun hdebt => by cases hdebt
    owed := trivial }

def DispatchReply.committed : DispatchReply -> Debt
  | .caller id => .completed id
  | .oneWay _ => .nobody

theorem Balanced.commitCompletion {reply : DispatchReply}
    (h : Balanced hand (.dispatched reply) value w) (hinv : MailInv w) :
    Balanced hand reply.committed value
      { w with mail := { w.mail with
          completed := reply.id :: w.mail.completed } } where
  mode := h.mode
  inHand := h.inHand
  owned := by
    intro e hmem hkind
    rcases h.owned e hmem hkind with
      hanswered | hqueue | hhand | hkey | hdebt
    · exact Or.inl hanswered
    · exact Or.inr (Or.inl hqueue)
    · exact Or.inr (Or.inr (Or.inl hhand))
    · exact Or.inr (Or.inr (Or.inr (Or.inl hkey)))
    · cases reply with
      | caller id => exact Or.inr (Or.inr (Or.inr (Or.inr hdebt)))
      | oneWay id => cases hdebt
  held := by
    intro key other hkey
    have hbacked := h.held key other hkey
    cases other with
    | oneWay id' => exact hbacked
    | caller id' =>
        refine ⟨hbacked.left, hbacked.right.left, ?_⟩
        intro hdone
        cases List.mem_cons.mp hdone with
        | inr hold => exact hbacked.right.right hold
        | inl heq =>
            cases reply with
            | caller id =>
                change id' = id at heq
                rw [heq] at hkey
                exact h.owed.right key id rfl hkey
            | oneWay id =>
                rcases hbacked.left with ⟨e, hmem, hid, hkind⟩
                rcases h.owed.left with ⟨e', hmem', hid', hkind'⟩
                have hsame := hinv.conserved.eq_of_id
                  (hinv.conserved.dispatched_admitted hmem)
                  (hinv.conserved.dispatched_admitted hmem')
                  (hid.trans (heq.trans hid'.symm))
                rw [hsame, hkind'] at hkind
                cases hkind
  distinct := h.distinct
  owed := by
    have howed := h.owed
    cases reply with
    | caller id =>
        exact ⟨howed.left.left, howed.left.right.left,
          List.mem_cons_self ..⟩
    | oneWay id => trivial
  delivered := h.delivered

theorem Balanced.completable {reply : DispatchReply}
    (h : Balanced hand (.dispatched reply) value w) (hinv : MailInv w) :
    ¬ w.mail.Answered reply.id ∧
      exists e, e ∈ w.mail.dispatched ∧ e.id = reply.id := by
  have hbacked := h.owed.left
  cases reply with
  | caller id =>
      rcases hbacked.left with ⟨e, hmem, hid, _⟩
      exact ⟨hbacked.right.left, e, hmem, hid⟩
  | oneWay id =>
      have hopen := hinv.oneWay_unanswered hbacked
      rcases hbacked with ⟨e, hmem, hid, _⟩
      exact ⟨hopen, e, hmem, hid⟩

theorem beginCompletion_owed (hP : Lasting A P) {reply : DispatchReply}
    (hw : Book hand (.dispatched reply) value P w) :
    wp (deliveryDiscipline V A) (mail (.beginCompletion reply.id))
      (fun result w =>
        match result with
        | .ok _ => Book hand reply.committed value P w
        | .error error => Book hand (.dispatched reply) value P w ∧
            Hardened w ∧ exists reason, error = .duringDispatch reason ∧
              Blames w.control.committed reason)
      Y w := by
  apply wp.op hP.book hw
  intro w hinv hw
  refine ⟨hw.left.completable hinv, ?_⟩
  intro input w' result _ hexec _
  have hlast := hP.op (.mail (.beginCompletion reply.id)) input w w' result rfl
    hinv hexec hw.right
  have hpair : some ({ w with
        mail := (w.mail.beginCompletion w.control.mode reply.id).1 },
      (w.mail.beginCompletion w.control.mode reply.id).2) =
      some (w', result) := hexec
  unfold Mail.beginCompletion at hpair
  cases hresult : (Loac.beginCompletion w.control.mode).2 with
  | ok _ =>
      rw [hresult] at hpair
      cases hpair
      exact ⟨hw.left.commitCompletion hinv, hlast⟩
  | error error =>
      rw [hresult] at hpair
      cases hpair
      rcases beginCompletion_error hresult with ⟨hhard, herror⟩
      have hmem := hinv.history.recorded
      subst herror
      exact ⟨hw, hardened_of_hard hhard hmem hw.left.mode,
        dispatchingFailure_blames hhard hmem hw.left.mode⟩

theorem complete_pays (hP : Lasting A P) {reply : DispatchReply}
    {response : Option V}
    (hearned : forall w, P w -> w.mail.Earned reply response)
    (hw : Book hand (.dispatched reply) (reply.due response) P w) :
    wp (deliveryDiscipline V A) (reply.complete response)
      (fun _ => Book hand .nobody none P) Y w := by
  cases reply with
  | oneWay id =>
      apply wp.seq (beginCompletion_owed hP hw)
      intro result w hw
      cases result with
      | ok _ => exact hP.dropCalled .value rfl w hw
      | error error =>
          exact hP.dropCalled .value rfl w ⟨hw.left.left.forgive, hw.left.right⟩
  | caller id =>
      apply wp.seq (beginCompletion_owed hP hw)
      intro result w hw
      cases result with
      | ok _ =>
          apply notifyResponse_pays hP rfl _ _ hw
          · intro w hinv hw
            have howed := hw.left.owed
            exact Mail.Tells.completed hinv.conserved
              ⟨howed.left, howed.right.right⟩ (hearned w hw.right)
          · intro w _ id' v heq
            cases response with
            | some v' =>
                cases heq
                exact Or.inr ⟨rfl, rfl⟩
            | none => cases heq
      | error error =>
          rcases hw with ⟨hw, hhard, reason, herror, hblames⟩
          subst herror
          have hlasting := hP.and
            (hardened_enduring.and (blames_enduring reason)).lasting
          apply wp.seq (R := fun _ => Book hand .nobody none P)
          · have hpaid := notifyFailed_pays hlasting (Y := Y)
              (fun w hw => hw.right.right) (fun w hw _ => hw.right.left)
              ⟨hw.left, hw.right, hhard, hblames⟩
            exact wp.mono (fun _ _ hw => ⟨hw.left, hw.right.left⟩)
              (fun _ hY => hY) hpaid
          · intro _ w hw
            exact hP.dropCalled .value rfl w hw

/-!
## Failure
-/

theorem fail_blames (hP : Lasting A P) (hw : Book hand debt value P w) :
    wp (deliveryDiscipline V A) DispatchReply.fail
      (fun error w => Book hand debt value P w ∧ Hardened w ∧
        exists reason, error = .duringDispatch reason ∧
          Blames w.control.committed reason)
      Y w := by
  have hhard : Lasting (V := V) A (fun w => P w ∧ Hard w) :=
    hP.and hard_enduring.lasting
  apply wp.seq (R := fun _ => Book hand debt value (fun w => P w ∧ Hard w))
  · apply wp.op hP.book hw
    intro w hinv hw
    refine ⟨trivial, ?_⟩
    intro input w' _ hadmits hexec hinv'
    have hexec' : (Op.transact .beginFailure).exec A input w =
        some (w', ()) := hexec
    have hkept : SoundAt (deliveryDiscipline V A) (.transact .beginFailure)
        (Book hand debt value P) (Book hand debt value P) :=
      hP.quiet rfl (fun _ => trivial)
    have hw' := ((hkept w hinv hw).right input w' () hadmits hexec' hinv').left rfl
    exact ⟨hw'.left, hw'.right, hard_beginFailure hexec'⟩
  · intro _ w hw
    apply wp.seq (hhard.mode hw)
    intro mode w hw
    rcases hw with ⟨⟨hbook, hP', hhard⟩, hmode, hmem, hopen⟩
    have hmodeHard : mode.isHard = true := by
      rw [hmode]
      exact hhard
    exact wp.pure ⟨⟨hbook, hP'⟩, hardened_of_hard hmodeHard hmem hopen,
      dispatchingFailure_blames hmodeHard hmem hopen⟩

theorem drop_pays (hP : Lasting A P) {reply : DispatchReply}
    (hw : Book hand (.dispatched reply) value P w)
    (hvalue : value = none) :
    wp (deliveryDiscipline V A) reply.drop
      (fun _ => Book hand .nobody none P) Y w := by
  subst hvalue
  cases reply with
  | oneWay id =>
      apply wp.seq (fail_blames hP hw)
      intro _ w hw
      exact wp.pure ⟨hw.left.left.forgive, hw.left.right⟩
  | caller id =>
      apply wp.seq (fail_blames hP hw)
      intro error w hw
      rcases hw with ⟨hw, _, reason, herror, hblames⟩
      subst herror
      have hpaid := notifyFailed_pays
        (hP.and (blames_enduring reason).lasting) (Y := Y)
        (fun w hw => hw.right) (fun _ _ hsome => absurd rfl hsome)
        ⟨hw.left, hw.right, hblames⟩
      exact wp.mono (fun _ _ hw => ⟨hw.left, hw.right.left⟩)
        (fun _ hY => hY) hpaid

/-!
## Taking and placing replies
-/

def owes : Option DispatchReply -> Debt
  | none => .nobody
  | some reply => .dispatched reply

theorem Balanced.takes (h : Balanced hand .nobody value w) {key : Key}
    {sched : Sched} (hgone : sched.holds key = none)
    (hothers : forall other, other ≠ key ->
      sched.holds other = w.sched.holds other) :
    Balanced hand (owes (w.sched.holds key)) value
      { w with sched := sched } := by
  have hold : forall other reply, sched.holds other = some reply ->
      other ≠ key ∧ w.sched.holds other = some reply := by
    intro other reply hother
    have hne : other ≠ key := by
      intro heq
      rw [heq, hgone] at hother
      cases hother
    exact ⟨hne, hothers other hne ▸ hother⟩
  exact {
    mode := h.mode
    inHand := h.inHand
    owned := by
      intro e hmem hkind
      rcases h.owned e hmem hkind with
        hanswered | hqueue | hhand | ⟨other, hother⟩ | hdebt
      · exact Or.inl hanswered
      · exact Or.inr (Or.inl hqueue)
      · exact Or.inr (Or.inr (Or.inl hhand))
      · refine Or.inr (Or.inr (Or.inr ?_))
        by_cases heq : other = key
        · subst heq
          rw [hother]
          exact Or.inr rfl
        · exact Or.inl ⟨other, (hothers other heq).trans hother⟩
      · cases hdebt
    held := fun other reply hother => h.held other reply (hold other reply hother).right
    distinct := fun other other' id hother hother' =>
      h.distinct other other' id (hold other _ hother).right
        (hold other' _ hother').right
    owed := by
      cases hkey : w.sched.holds key with
      | none => trivial
      | some reply =>
          refine ⟨h.held key reply hkey, ?_⟩
          intro other id hreply hother
          subst hreply
          have hother := hold other _ hother
          exact hother.left (h.distinct other key id hother.right hkey)
    delivered := h.delivered }

theorem Balanced.places {reply : Option DispatchReply}
    (h : Balanced hand (owes reply) value w) {key : Key} {sched : Sched}
    (hfree : w.sched.holds key = none) (hplaced : sched.holds key = reply)
    (hothers : forall other, other ≠ key ->
      sched.holds other = w.sched.holds other) :
    Balanced hand .nobody value { w with sched := sched } := by
  have hold : forall other, w.sched.holds other = none ∨
      sched.holds other = w.sched.holds other := by
    intro other
    by_cases heq : other = key
    · rw [heq]
      exact Or.inl hfree
    · exact Or.inr (hothers other heq)
  have hheld : forall other r, sched.holds other = some r ->
      (other = key ∧ reply = some r) ∨
        (other ≠ key ∧ w.sched.holds other = some r) := by
    intro other r hother
    by_cases heq : other = key
    · subst heq
      exact Or.inl ⟨rfl, hplaced.symm.trans hother⟩
    · exact Or.inr ⟨heq, (hothers other heq).symm.trans hother⟩
  exact {
    mode := h.mode
    inHand := h.inHand
    owned := by
      intro e hmem hkind
      rcases h.owned e hmem hkind with
        hanswered | hqueue | hhand | ⟨other, hother⟩ | hdebt
      · exact Or.inl hanswered
      · exact Or.inr (Or.inl hqueue)
      · exact Or.inr (Or.inr (Or.inl hhand))
      · refine Or.inr (Or.inr (Or.inr (Or.inl ⟨other, ?_⟩)))
        cases hold other with
        | inl hnone =>
            rw [hnone] at hother
            cases hother
        | inr hsame => exact hsame.trans hother
      · refine Or.inr (Or.inr (Or.inr (Or.inl ⟨key, ?_⟩)))
        show sched.holds key = _
        rw [hplaced]
        cases reply with
        | none => cases hdebt
        | some reply =>
            cases reply with
            | caller id =>
                cases hdebt
                rfl
            | oneWay id => cases hdebt
    held := by
      intro other r hother
      rcases hheld other r hother with ⟨_, hreply⟩ | ⟨_, hother⟩
      · subst hreply
        exact h.owed.left
      · exact h.held other r hother
    distinct := by
      intro other other' id hother hother'
      rcases hheld other _ hother with ⟨heq, hreply⟩ | ⟨_, hother⟩
      · subst hreply
        rcases hheld other' _ hother' with ⟨heq', _⟩ | ⟨_, hother'⟩
        · rw [heq, heq']
        · exact absurd hother' (h.owed.right other' id rfl)
      · rcases hheld other' _ hother' with ⟨_, hreply⟩ | ⟨_, hother'⟩
        · subst hreply
          exact absurd hother (h.owed.right other id rfl)
        · exact h.distinct other other' id hother hother'
    owed := trivial
    delivered := h.delivered }

end Loac

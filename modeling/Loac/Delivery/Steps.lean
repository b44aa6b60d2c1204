import Loac.Delivery.Discipline

/-!
# The promise is kept

Every step of the clients and every operation of the actor task keeps what is
promised to senders, as long as it meets its demands.
-/

namespace Loac

open Interleave

variable {V α : Type} {A : ActorConfig} {w w' : World V}

/-!
## Steps of the environment
-/

theorem EnvAct.exited_exec {e : EnvAct} (henv : e.exec A w = some w')
    (hexited : w'.control.mode.isExited = true) :
    w.control.mode.isExited = true := by
  rcases EnvAct.control_exec henv with heq | ⟨next, hpresses, hcontrol⟩
  · rwa [heq] at hexited
  · rw [hcontrol, Control.commit_mode] at hexited
    rw [hpresses.tentative.right] at hexited
    cases hexited

theorem MailInv.client_step (h : MailInv w) {mail : Mail V}
    (hconserved : mail.Conserved) (hgrows : w.mail.Grows mail)
    (hcompleted : mail.completed = w.mail.completed)
    (hclosed : mail.closed = w.mail.closed) (hhand : mail.hand = w.mail.hand)
    (hattempted : mail.attempted = w.mail.attempted)
    (hresponses : mail.responses = w.mail.responses)
    (hqueue : mail.queue = w.mail.queue ∨ w.control.mode = .running)
    (registered : Bool) :
    MailInv ({ w with mail := mail }.wakeIf registered) := by
  apply h.step
  exact {
    control := .stays rfl rfl
    conserved := hconserved
    grows := hgrows
    completed := by
      intro id hdone
      change id ∈ mail.completed at hdone
      rw [hcompleted] at hdone
      exact Or.inl hdone
    closed := by
      intro hnew
      change mail.closed = true at hnew
      rw [hclosed] at hnew
      exact Or.inl hnew
    hand := by
      show mail.hand.length <= 1
      rw [hhand]
      exact h.hand
    attempted := Or.inl hattempted
    decided := by
      intro e hmem
      refine Or.inr (Or.inl ?_)
      show e ∈ mail.hand
      rwa [hhand]
    exited := by
      intro hexited
      have hempty := h.exited hexited
      constructor
      · cases hqueue with
        | inl hsame => exact hsame.trans hempty.left
        | inr hrunning =>
            change w.control.mode.isExited = true at hexited
            rw [hrunning] at hexited
            cases hexited
      · exact hhand.trans hempty.right
    told := Or.inl hresponses }

theorem wakeIf_false (w : World V) : w.wakeIf false = w := by
  unfold World.wakeIf
  rw [Bool.or_false]

theorem MailInv.env_step {e : EnvAct} (h : MailInv w)
    (henv : e.exec A w = some w') : MailInv w' := by
  have hquiet (hmail : w'.mail = w.mail) : MailInv w' :=
    h.quiet_step (EnvAct.control_moves henv)
      (fun hexited => h.exited (EnvAct.exited_exec henv hexited))
      (fun p (hmem : p ∈ w.mail.returned) => hmem) hmail
  cases e with
  | reserve =>
      rw [EnvAct.exec] at henv
      cases hbox : A.mailbox with
      | none =>
          rw [hbox] at henv
          cases henv
      | some transport =>
          rw [hbox] at henv
          rcases Option.map_eq_some_iff.mp henv with ⟨mail, hreserve, hw'⟩
          subst hw'
          unfold Mail.reserve at hreserve
          split at hreserve
          · cases hreserve
            rw [← wakeIf_false { w with mail := _ }]
            have hconserved : Mail.Conserved
                { w.mail with reserved := w.mail.reserved + 1 } :=
              h.conserved.keeps ⟨rfl, rfl, rfl, rfl, rfl, rfl, rfl, rfl, rfl⟩
            exact h.client_step hconserved { Mail.Grows.refl w.mail with }
              rfl rfl rfl rfl rfl (Or.inl rfl) false
          · cases hreserve
  | release =>
      rcases Option.map_eq_some_iff.mp henv with ⟨mail, hrelease, hw'⟩
      subst hw'
      unfold Mail.release at hrelease
      split at hrelease
      · cases hrelease
      · rename_i reserved _
        cases hrelease
        have hconserved : Mail.Conserved
            { w.mail with
              reserved := reserved
              waker := w.mail.waker && !(w.mail.closed && reserved = 0) } :=
          h.conserved.keeps ⟨rfl, rfl, rfl, rfl, rfl, rfl, rfl, rfl, rfl⟩
        exact h.client_step hconserved { Mail.Grows.refl w.mail with }
          rfl rfl rfl rfl rfl (Or.inl rfl) _
  | refuse =>
      rw [EnvAct.exec] at henv
      split at henv
      · cases henv
        rw [← wakeIf_false { w with mail := _ }]
        exact h.client_step h.conserved.refuse { Mail.Grows.refl w.mail with }
          rfl rfl rfl rfl rfl (Or.inl rfl) false
      · cases henv
  | admitEnvelope kind =>
      rcases Option.map_eq_some_iff.mp henv with ⟨mail, hadmit, hw'⟩
      subst hw'
      unfold Mail.admitEnvelope at hadmit
      cases hreserved : w.mail.reserved with
      | zero =>
          rw [hreserved] at hadmit
          cases hadmit
      | succ reserved =>
          rw [hreserved] at hadmit
          simp only at hadmit
          by_cases hrunning : w.control.mode = .running
          · rw [if_pos hrunning] at hadmit
            split at hadmit
            · cases hadmit
            · cases hadmit
              exact h.client_step (h.conserved.enqueue kind reserved)
                { Mail.Grows.refl w.mail with } rfl rfl rfl rfl rfl
                (Or.inr hrunning) _
          · rw [if_neg hrunning] at hadmit
            cases hadmit
            exact h.client_step h.conserved.refuse
              { Mail.Grows.refl w.mail with } rfl rfl rfl rfl rfl
              (Or.inl rfl) _
  | abandon id =>
      cases henv
      rw [← wakeIf_false { w with mail := _ }]
      have hgrows : w.mail.Grows (w.mail.abandon id) :=
        { Mail.Grows.refl w.mail with
          abandoned := fun _ hmem => List.mem_cons_of_mem _ hmem }
      have hconserved : (w.mail.abandon id).Conserved :=
        h.conserved.keeps ⟨rfl, rfl, rfl, rfl, rfl, rfl, rfl, rfl, rfl⟩
      exact h.client_step hconserved hgrows rfl rfl rfl rfl rfl (Or.inl rfl)
        false
  | _ =>
      apply hquiet
      grind [EnvAct.exec, World.transact, World.wakeIf, Option.map_eq_some_iff]

/-!
## Steps of the actor task
-/

/-- The operation publishes the status of the actor. -/
def Op.finishes : Op V α -> Bool
  | .transact (.finish _) => true
  | _ => false

theorem Op.exited_exec {op : Op V α} {input : Input V} {a : α}
    (hfinishes : op.finishes = false) (h : op.exec A input w = some (w', a))
    (hexited : w'.control.mode.isExited = true) :
    w.control.mode.isExited = true := by
  cases hends : op.ends with
  | false =>
      cases Op.control_presses hends h with
      | inl hsame => rwa [hsame] at hexited
      | inr hpress =>
          rw [hpress.tentative.right] at hexited
          cases hexited
  | true =>
      cases op with
      | transact t =>
          cases t with
          | beginAbort =>
              cases h
              change (w.control.commit (Loac.beginAbort _)).mode.isExited = true
                at hexited
              rw [Control.commit_mode] at hexited
              cases hmode : w.control.mode with
              | exited status => rfl
              | _ =>
                  rw [hmode] at hexited
                  cases hexited
          | finish proposed => cases hfinishes
          | _ => cases hends
      | _ => cases hends

def Op.isMail : Op V α -> Bool
  | .mail _ => true
  | _ => false

theorem World.recordReturn_mail (w : World V) (site : UserSite)
    (value : Option V) :
    exists returned, (w.recordReturn site value).mail =
        { w.mail with returned := returned } ∧
      forall p, p ∈ w.mail.returned -> p ∈ returned := by
  unfold World.recordReturn
  split
  · refine ⟨_, rfl, ?_⟩
    intro p hmem
    split
    · exact List.mem_cons_of_mem _ hmem
    · exact hmem
  · exact ⟨_, rfl, fun _ hmem => hmem⟩

theorem Op.mail_exec {op : Op V α} {input : Input V} {a : α}
    (hmail : op.isMail = false) (h : op.exec A input w = some (w', a)) :
    exists returned, w'.mail = { w.mail with returned := returned } ∧
      forall p, p ∈ w.mail.returned -> p ∈ returned := by
  cases op with
  | mail op => cases hmail
  | user site =>
      cases input with
      | user act =>
          cases act with
          | returns value =>
              cases h
              exact w.recordReturn_mail site value
          | _ =>
              have hsame : w'.mail = w.mail := by
                grind [Op.exec, World.userStep]
              exact ⟨w.mail.returned, hsame, fun _ hmem => hmem⟩
      | _ => cases h
  | spawn =>
      rw [Op.spawn_exec h]
      exact ⟨w.mail.returned, rfl, fun _ hmem => hmem⟩
  | _ =>
      have hsame : w'.mail = w.mail := by
        grind [Op.exec, World.wakeIf, World.transact]
      exact ⟨w.mail.returned, hsame, fun _ hmem => hmem⟩

theorem MailInv.other_step {op : Op V α} {input : Input V} {a : α}
    (h : MailInv w) (hmail : op.isMail = false)
    (hdemands : DeliveryDemands op w)
    (hexec : op.exec A input w = some (w', a)) : MailInv w' := by
  rcases Op.mail_exec hmail hexec with ⟨returned, hsame, hreturned⟩
  apply h.quiet_step (Op.control_moves hexec) _ hreturned hsame
  intro hexited
  cases hfinishes : op.finishes with
  | false => exact h.exited (Op.exited_exec hfinishes hexec hexited)
  | true =>
      cases op with
      | transact t =>
          cases t with
          | finish proposed => exact hdemands.right
          | _ => cases hfinishes
      | _ => cases hfinishes

/-- An operation on the mailbox that neither empties nor fills it. -/
theorem MailInv.answer_step (h : MailInv w) {mail : Mail V}
    (hkeeps : Mail.Conserved.Keeps w.mail mail) (hgrows : w.mail.Grows mail)
    (hcompleted : forall id, id ∈ mail.completed ->
      id ∈ w.mail.completed ∨
        (¬ w.mail.Answered id ∧ exists e, e ∈ w.mail.dispatched ∧ e.id = id))
    (hclosed : mail.closed = true -> w.mail.closed = true ∨ Closing w)
    (htold : mail.responses = w.mail.responses ∨
      exists id response, ¬ w.mail.Answered id ∧
        mail.responses = (id, response) :: w.mail.responses ∧
        mail.Tells w.control.committed id response) :
    MailInv { w with mail := mail } := by
  apply h.step
  exact {
    control := .stays rfl rfl
    conserved := h.conserved.keeps hkeeps
    grows := hgrows
    completed := hcompleted
    closed := hclosed
    hand := by
      show mail.hand.length <= 1
      rw [hkeeps.hand]
      exact h.hand
    attempted := Or.inl hkeeps.attempted
    decided := by
      intro e hmem
      refine Or.inr (Or.inl ?_)
      show e ∈ mail.hand
      rwa [hkeeps.hand]
    exited := by
      intro hexited
      have hempty := h.exited hexited
      exact ⟨hkeeps.queue.trans hempty.left, hkeeps.hand.trans hempty.right⟩
    told := htold }

theorem MailInv.take_step (h : MailInv w) (hdiscarded : w.mail.discarded = [])
    (hhand : w.mail.hand = []) (hpunctual : w.mail.Punctual)
    (transport : Transport) (reception : Reception) :
    MailInv { w with mail := (w.mail.pollRecv transport reception).1 } := by
  have hconserved := h.conserved.pollRecv hdiscarded transport reception
  unfold Mail.pollRecv at hconserved ⊢
  by_cases hrefused : reception = .refused
  · rw [if_pos hrefused]
    exact h
  rw [if_neg hrefused] at hconserved ⊢
  cases hqueue : w.mail.queue with
  | nil =>
      rw [hqueue] at hconserved
      simp only at hconserved ⊢
      split
      · exact h
      · exact h.answer_step
          ⟨hqueue.symm, rfl, rfl, rfl, rfl, rfl, rfl, rfl, rfl⟩
          { Mail.Grows.refl w.mail with } (fun _ => Or.inl) Or.inl
          (Or.inl rfl)
  | cons e rest =>
      rw [hqueue] at hconserved
      simp only at hconserved ⊢
      apply h.step
      exact {
        control := .stays rfl rfl
        conserved := hconserved
        grows := { Mail.Grows.refl w.mail with }
        completed := fun _ => Or.inl
        closed := Or.inl
        hand := by
          show (e :: w.mail.hand).length <= 1
          rw [hhand]
          exact Nat.le_refl 1
        attempted := Or.inr ⟨hpunctual, e, rfl, List.mem_cons_self ..⟩
        decided := fun e' hmem =>
          Or.inr (Or.inl (List.mem_cons_of_mem e hmem))
        exited := by
          intro hexited
          have hempty := (h.exited hexited).left
          rw [hqueue] at hempty
          cases hempty
        told := Or.inl rfl }

theorem MailInv.discard_step (h : MailInv w) :
    MailInv { w with mail := w.mail.tryRecv.1 } := by
  have hconserved := h.conserved.tryRecv
  unfold Mail.tryRecv at hconserved ⊢
  cases hqueue : w.mail.queue with
  | nil => exact h
  | cons e rest =>
      rw [hqueue] at hconserved
      simp only at hconserved ⊢
      apply h.step
      exact {
        control := .stays rfl rfl
        conserved := hconserved
        grows := { Mail.Grows.refl w.mail with
          rejected := fun _ hmem => List.mem_cons_of_mem _ hmem }
        completed := fun _ => Or.inl
        closed := Or.inl
        hand := h.hand
        attempted := Or.inl rfl
        decided := fun _ hmem => Or.inr (Or.inl hmem)
        exited := by
          intro hexited
          have hempty := (h.exited hexited).left
          rw [hqueue] at hempty
          cases hempty
        told := Or.inl rfl }

theorem MailInv.decide_step (h : MailInv w) {envelope : Envelope} {mail : Mail V}
    (hconserved : mail.Conserved) (hgrows : w.mail.Grows mail)
    (hhand : mail.hand = w.mail.hand.erase envelope)
    (hqueue : mail.queue = w.mail.queue)
    (hcompleted : mail.completed = w.mail.completed)
    (hclosed : mail.closed = w.mail.closed)
    (hattempted : mail.attempted = w.mail.attempted)
    (hresponses : mail.responses = w.mail.responses)
    (hdecided : mail.Settled envelope ∨ Cut w) :
    MailInv { w with mail := mail } := by
  apply h.step
  exact {
    control := .stays rfl rfl
    conserved := hconserved
    grows := hgrows
    completed := by
      intro id hdone
      change id ∈ mail.completed at hdone
      rw [hcompleted] at hdone
      exact Or.inl hdone
    closed := by
      intro hnew
      change mail.closed = true at hnew
      rw [hclosed] at hnew
      exact Or.inl hnew
    hand := by
      show mail.hand.length <= 1
      rw [hhand]
      exact Nat.le_trans (List.length_erase_le ..) h.hand
    attempted := Or.inl hattempted
    decided := by
      intro e hmem
      by_cases heq : e = envelope
      · subst heq
        exact hdecided.imp_right Or.inr
      · refine Or.inr (Or.inl ?_)
        show e ∈ mail.hand
        rw [hhand]
        exact (List.mem_erase_of_ne heq).mpr hmem
    exited := by
      intro hexited
      have hempty := h.exited hexited
      refine ⟨hqueue.trans hempty.left, ?_⟩
      show mail.hand = []
      rw [hhand, hempty.right]
      rfl
    told := Or.inl hresponses }

theorem MailInv.reject_step (h : MailInv w) (envelope : Envelope)
    (hdecided : (envelope.kind.hasReceiver = true ∧
      envelope.id ∈ w.mail.abandoned) ∨ Cut w) :
    MailInv { w with mail := w.mail.reject envelope } := by
  have hconserved := h.conserved.reject envelope
  unfold Mail.reject at hconserved ⊢
  by_cases hmem : envelope ∈ w.mail.hand
  · rw [if_pos hmem] at hconserved ⊢
    apply h.decide_step hconserved _ rfl rfl rfl rfl rfl rfl
    · exact hdecided.imp_left
        (fun hgiven => Or.inr ⟨List.mem_cons_self .., hgiven⟩)
    · exact { Mail.Grows.refl w.mail with
        rejected := fun _ hmem => List.mem_cons_of_mem _ hmem }
  · rw [if_neg hmem]
    exact h

theorem beginDispatch_error {mode : Mode} {error : CallError}
    (h : (Loac.beginDispatch mode).2 = .error error) :
    (mode ≠ .running ∧ mode ≠ .draining) ∧
      error = callFailureFor mode .queued := by
  cases mode <;> first
    | (cases h; done)
    | (cases h; exact ⟨⟨by simp, by simp⟩, rfl⟩)

theorem MailInv.dispatch_step (h : MailInv w) (envelope : Envelope) :
    MailInv { w with
      mail := (w.mail.beginDispatch w.control.mode envelope).1 } := by
  unfold Mail.beginDispatch
  cases hresult : (Loac.beginDispatch w.control.mode).2 with
  | error error =>
      exact h.reject_step envelope (Or.inr (beginDispatch_error hresult).left)
  | ok _ =>
      simp only
      by_cases hmem : envelope ∈ w.mail.hand
      · rw [if_pos hmem]
        apply h.decide_step (h.conserved.dispatch hmem) _ rfl rfl rfl rfl rfl
          rfl (Or.inl (Or.inl (List.mem_cons_self ..)))
        exact { Mail.Grows.refl w.mail with
          dispatched := fun _ hmem => List.mem_cons_of_mem _ hmem }
      · rw [if_neg hmem]
        exact h

theorem MailInv.complete_step (h : MailInv w) {id : Nat}
    (hopen : ¬ w.mail.Answered id)
    (hdispatched : exists e, e ∈ w.mail.dispatched ∧ e.id = id) :
    MailInv { w with
      mail := (w.mail.beginCompletion w.control.mode id).1 } := by
  unfold Mail.beginCompletion
  cases hresult : (Loac.beginCompletion w.control.mode).2 with
  | error error => exact h
  | ok _ =>
      have hkeeps : Mail.Conserved.Keeps w.mail
          { w.mail with completed := id :: w.mail.completed } :=
        ⟨rfl, rfl, rfl, rfl, rfl, rfl, rfl, rfl, rfl⟩
      apply h.answer_step hkeeps _ _ Or.inl (Or.inl rfl)
      · exact { Mail.Grows.refl w.mail with
          completed := fun _ hmem => List.mem_cons_of_mem _ hmem }
      · intro id' hmem
        cases List.mem_cons.mp hmem with
        | inl heq =>
            subst heq
            exact Or.inr ⟨hopen, hdispatched⟩
        | inr hold => exact Or.inl hold

theorem MailInv.respond_step (h : MailInv w) {id : Nat} {response : Response V}
    (hopen : ¬ w.mail.Answered id)
    (htells : w.mail.Tells w.control.committed id response) :
    MailInv { w with mail := (w.mail.respond id response).1 } := by
  have hgrows : w.mail.Grows (w.mail.respond id response).1 :=
    { Mail.Grows.refl w.mail with }
  exact h.answer_step ⟨rfl, rfl, rfl, rfl, rfl, rfl, rfl, rfl, rfl⟩ hgrows
    (fun _ => Or.inl) Or.inl
    (Or.inr ⟨id, response, hopen, rfl,
      htells.mono hgrows (fun _ hmem => hmem) (fun hopen => hopen)⟩)

theorem MailInv.elsewhere (h : MailInv w) (task : Bool) (life : Life) :
    MailInv { w with task := task, life := life } :=
  { h with }

theorem MailInv.mail_step {op : MailOp V α} {input : Input V} {a : α}
    (h : MailInv w) (hdemands : DeliveryDemands (.mail op) w)
    (hexec : (Op.mail op).exec A input w = some (w', a)) : MailInv w' := by
  cases hexec
  cases op with
  | close =>
      have hclose : MailInv { w with mail := { w.mail with closed := true } } :=
        h.answer_step ⟨rfl, rfl, rfl, rfl, rfl, rfl, rfl, rfl, rfl⟩
          { Mail.Grows.refl w.mail with } (fun _ => Or.inl)
          (fun _ => Or.inr hdemands) (Or.inl rfl)
      exact hclose.elsewhere _ _
  | isEmpty => exact h
  | pollRecv turn =>
      exact (h.take_step hdemands.left hdemands.right.left hdemands.right.right
        (A.mailbox.getD .unbounded) input.reception).elsewhere _ _
  | tryRecv => exact h.discard_step.elsewhere _ _
  | replyIsClosed envelope =>
      show MailInv { w with mail := (w.mail.replyIsClosed envelope).1 }
      unfold Mail.replyIsClosed
      by_cases hmem : envelope.id ∈ w.mail.abandoned
      · rw [if_pos hmem]
        exact h.reject_step envelope (Or.inl ⟨hdemands, hmem⟩)
      · rw [if_neg hmem]
        exact h
  | beginDispatch envelope => exact h.dispatch_step envelope
  | beginCompletion id => exact h.complete_step hdemands.left hdemands.right
  | respond id response => exact h.respond_step hdemands.left hdemands.right

theorem deliveryDiscipline_lawful : (deliveryDiscipline V A).Lawful where
  env := fun _ _ _ hinv _ henv => MailInv.env_step hinv henv
  actor := by
    intro β op input w w' b hinv hdemands _ hexec
    cases hmail : op.isMail with
    | false => exact MailInv.other_step hinv hmail hdemands hexec
    | true =>
        cases op with
        | mail op => exact MailInv.mail_step hinv hdemands hexec
        | _ => cases hmail

theorem MailInv.new (V : Type) : MailInv (World.new V) where
  history := .start
  conserved := .new V
  closed := by
    intro hclosed
    cases hclosed
  hand := Nat.zero_le 1
  settled := by
    intro e hmem
    cases hmem
  last := by
    intro e hlast
    cases hlast
  exited := by
    intro hexited
    cases hexited
  told := by
    intro id response hmem
    cases hmem
  once := List.nodup_nil
  completed := by
    intro id hmem
    cases hmem

end Loac

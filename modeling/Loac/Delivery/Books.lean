import Loac.Containment.Waiting
import Loac.Delivery.Steps

/-!
# The books

Most steps leave the books alone.  The ones that do not are the operations on
envelopes and on the replies of scheduled futures, which come in small groups:
a reply is taken, answered, and gone.
-/

namespace Loac

open Interleave

variable {V α : Type} {A : ActorConfig} {w w' : World V}
  {hand : List Envelope} {debt : Debt} {value : Option (Nat × V)}

/-- Nothing that the books record changes, but that messages are admitted. -/
structure Undisturbed (w w' : World V) : Prop where
  inHand : w'.mail.hand = w.mail.hand
  admitted : forall e, e ∈ w'.mail.admitted ->
    e ∈ w.mail.admitted ∨ e ∈ w'.mail.queue
  queue : forall e, e ∈ w.mail.queue -> e ∈ w'.mail.queue
  dispatched : w'.mail.dispatched = w.mail.dispatched
  rejected : w'.mail.rejected = w.mail.rejected
  completed : w'.mail.completed = w.mail.completed
  returned : w'.mail.returned = w.mail.returned
  responses : w'.mail.responses = w.mail.responses
  holds : forall key, w'.sched.holds key = w.sched.holds key
  committed : forall mode, mode ∈ w.control.committed ->
    mode ∈ w'.control.committed

theorem Hardened.mono
    (hcommitted : forall mode, mode ∈ w.control.committed ->
      mode ∈ w'.control.committed)
    (h : Hardened w) : Hardened w' := by
  rcases h with ⟨mode, hmem, hmode⟩
  exact ⟨mode, hcommitted mode hmem, hmode⟩

theorem Undisturbed.answered (h : Undisturbed w w') (id : Nat) :
    w'.mail.Answered id <-> w.mail.Answered id := by
  unfold Mail.Answered
  rw [h.responses]

theorem Undisturbed.backed (h : Undisturbed w w') (reply : DispatchReply) :
    Backed w'.mail reply <-> Backed w.mail reply := by
  cases reply with
  | caller id => simp only [Backed, h.dispatched, h.completed, h.answered]
  | oneWay id => simp only [Backed, h.dispatched]

theorem Undisturbed.owed (h : Undisturbed w w') (debt : Debt) :
    debt.Owed w' <-> debt.Owed w := by
  cases debt with
  | nobody => exact Iff.rfl
  | rejected id => simp only [Debt.Owed, h.rejected, h.answered]
  | dispatched reply => simp only [Debt.Owed, h.backed, h.holds]
  | completed id =>
      simp only [Debt.Owed, h.dispatched, h.completed, h.answered]

theorem Balanced.undisturbed (h : Balanced hand debt value w)
    (hmode : w'.control.mode.isExited = false) (hw : Undisturbed w w') :
    Balanced hand debt value w' where
  mode := hmode
  inHand := hw.inHand.trans h.inHand
  owned := by
    intro e hmem hkind
    rw [hw.answered]
    cases hw.admitted e hmem with
    | inr hqueue => exact Or.inr (Or.inl hqueue)
    | inl hold =>
        rcases h.owned e hold hkind with
          hanswered | hqueue | hhand | ⟨key, hkey⟩ | hdebt
        · exact Or.inl hanswered
        · exact Or.inr (Or.inl (hw.queue e hqueue))
        · exact Or.inr (Or.inr (Or.inl hhand))
        · refine Or.inr (Or.inr (Or.inr (Or.inl ⟨key, ?_⟩)))
          rw [hw.holds]
          exact hkey
        · exact Or.inr (Or.inr (Or.inr (Or.inr hdebt)))
  held := by
    intro key reply hkey
    rw [hw.holds] at hkey
    exact (hw.backed reply).mpr (h.held key reply hkey)
  distinct := by
    intro key key' id hkey hkey'
    rw [hw.holds] at hkey hkey'
    exact h.distinct key key' id hkey hkey'
  owed := (hw.owed debt).mpr h.owed
  delivered := by
    intro id v hmem
    rw [hw.returned] at hmem
    rw [hw.responses]
    exact (h.delivered id v hmem).imp_left (Hardened.mono hw.committed)

theorem Balanced.elsewhere (h : Balanced hand debt value w) (task : Bool)
    (life : Life) :
    Balanced hand debt value { w with task := task, life := life } :=
  { h with
    owed := by cases debt <;> exact h.owed
    delivered := h.delivered }

/-!
## The environment
-/

theorem EnvAct.mail_exec {e : EnvAct} (h : e.exec A w = some w') :
    exists queue reserved waker nextId admitted refused abandoned,
      w'.mail = { w.mail with
        queue := queue
        reserved := reserved
        waker := waker
        nextId := nextId
        admitted := admitted
        refused := refused
        abandoned := abandoned } ∧
      (forall id, id ∈ w.mail.abandoned -> id ∈ abandoned) ∧
      ((queue = w.mail.queue ∧ admitted = w.mail.admitted) ∨
        (w.control.mode = .running ∧ exists e,
          queue = w.mail.queue ++ [e] ∧ admitted = w.mail.admitted ++ [e])) := by
  have hsame (hmail : w'.mail = w.mail) : exists queue reserved waker nextId
      admitted refused abandoned,
      w'.mail = { w.mail with
        queue := queue
        reserved := reserved
        waker := waker
        nextId := nextId
        admitted := admitted
        refused := refused
        abandoned := abandoned } ∧
      (forall id, id ∈ w.mail.abandoned -> id ∈ abandoned) ∧
      ((queue = w.mail.queue ∧ admitted = w.mail.admitted) ∨
        (w.control.mode = .running ∧ exists e,
          queue = w.mail.queue ++ [e] ∧ admitted = w.mail.admitted ++ [e])) :=
    ⟨_, _, _, _, _, _, _, hmail, fun _ hmem => hmem, Or.inl ⟨rfl, rfl⟩⟩
  cases e with
  | reserve =>
      rw [EnvAct.exec] at h
      cases hbox : A.mailbox with
      | none =>
          rw [hbox] at h
          cases h
      | some transport =>
          rw [hbox] at h
          rcases Option.map_eq_some_iff.mp h with ⟨mail, hreserve, hw'⟩
          subst hw'
          unfold Mail.reserve at hreserve
          split at hreserve
          · cases hreserve
            exact ⟨_, _, _, _, _, _, _, rfl, fun _ hmem => hmem,
              Or.inl ⟨rfl, rfl⟩⟩
          · cases hreserve
  | release =>
      rcases Option.map_eq_some_iff.mp h with ⟨mail, hrelease, hw'⟩
      subst hw'
      unfold Mail.release at hrelease
      split at hrelease
      · cases hrelease
      · cases hrelease
        exact ⟨_, _, _, _, _, _, _, rfl, fun _ hmem => hmem,
          Or.inl ⟨rfl, rfl⟩⟩
  | refuse =>
      rw [EnvAct.exec] at h
      split at h
      · cases h
        exact ⟨_, _, _, _, _, _, _, rfl, fun _ hmem => hmem,
          Or.inl ⟨rfl, rfl⟩⟩
      · cases h
  | admitEnvelope kind =>
      rcases Option.map_eq_some_iff.mp h with ⟨mail, hadmit, hw'⟩
      subst hw'
      unfold Mail.admitEnvelope at hadmit
      split at hadmit
      · cases hadmit
      · by_cases hrunning : w.control.mode = .running
        · rw [if_pos hrunning] at hadmit
          split at hadmit
          · cases hadmit
          · cases hadmit
            exact ⟨_, _, _, _, _, _, _, rfl, fun _ hmem => hmem,
              Or.inr ⟨hrunning, _, rfl, rfl⟩⟩
        · rw [if_neg hrunning] at hadmit
          cases hadmit
          exact ⟨_, _, _, _, _, _, _, rfl, fun _ hmem => hmem,
            Or.inl ⟨rfl, rfl⟩⟩
  | abandon id =>
      cases h
      exact ⟨_, _, _, _, _, _, _, rfl,
        fun _ hmem => List.mem_cons_of_mem _ hmem, Or.inl ⟨rfl, rfl⟩⟩
  | _ =>
      apply hsame
      grind [EnvAct.exec, World.transact, World.wakeIf, Option.map_eq_some_iff]

theorem EnvAct.undisturbed {e : EnvAct} (h : e.exec A w = some w') :
    Undisturbed w w' := by
  have hholds : forall key, w'.sched.holds key = w.sched.holds key := by
    intro key
    unfold Sched.holds
    rw [EnvAct.items_exec h]
  have hcommitted : forall mode, mode ∈ w.control.committed ->
      mode ∈ w'.control.committed :=
    fun _ => (EnvAct.control_moves h).committed
  rcases EnvAct.mail_exec h with
    ⟨queue, reserved, waker, nextId, admitted, refused, abandoned, hmail, _,
      hqueue⟩
  have hadmitted : forall e, e ∈ admitted -> e ∈ w.mail.admitted ∨ e ∈ queue := by
    intro e hmem
    rcases hqueue with ⟨_, hsame⟩ | ⟨_, new, hqueue, hnew⟩
    · exact Or.inl (hsame ▸ hmem)
    · rw [hnew, List.mem_append] at hmem
      rw [hqueue]
      exact hmem.imp_right (List.mem_append_right _)
  have hkept : forall e, e ∈ w.mail.queue -> e ∈ queue := by
    intro e hmem
    rcases hqueue with ⟨hsame, _⟩ | ⟨_, new, hqueue, _⟩
    · exact hsame ▸ hmem
    · rw [hqueue]
      exact List.mem_append_left _ hmem
  exact {
    inHand := by rw [hmail]
    admitted := by rw [hmail]; exact hadmitted
    queue := by rw [hmail]; exact hkept
    dispatched := by rw [hmail]
    rejected := by rw [hmail]
    completed := by rw [hmail]
    returned := by rw [hmail]
    responses := by rw [hmail]
    holds := hholds
    committed := hcommitted }

theorem EnvAct.open_exec {e : EnvAct} (h : e.exec A w = some w')
    (hopen : w.control.mode.isExited = false) :
    w'.control.mode.isExited = false := by
  cases hexited : w'.control.mode.isExited with
  | false => rfl
  | true =>
      rw [EnvAct.exited_exec h hexited] at hopen
      cases hopen

theorem balanced_stable :
    (deliveryDiscipline V A).Stable (Balanced hand debt value) := by
  intro e w w' _ _ henv hw
  exact hw.undisturbed (EnvAct.open_exec henv hw.mode) (EnvAct.undisturbed henv)

/-!
## Operations that leave the books alone
-/

def Op.books : Op V α -> Bool
  | .transact (.finish _) => true
  | .mail .close => false
  | .mail .isEmpty => false
  | .mail _ => true
  | .sched (.place _ _) => true
  | .sched (.remove _) => true
  | .sched .drain => true
  | .sched (.takeReply _) => true
  | .user (.replyPoll _) => true
  | _ => false

theorem SchedOp.holds_exec {op : SchedOp α} {sched : Sched}
    (hbooks : (Op.sched op : Op V α).books = false) (key : Key) :
    (op.exec sched).1.holds key = sched.holds key := by
  cases op with
  | place key future => cases hbooks
  | remove key => cases hbooks
  | drain => cases hbooks
  | takeReply key => cases hbooks
  | markReady key' =>
      show (sched.markReady key').holds key = _
      unfold Sched.markReady
      split <;> rfl
  | takeReady key' =>
      show (sched.takeReady key').1.holds key = _
      unfold Sched.takeReady
      split <;> rfl
  | popReady =>
      show sched.popReady.1.holds key = _
      unfold Sched.popReady
      split <;> rfl
  | takeFinal key' =>
      show (sched.takeFinal key').1.holds key = _
      unfold Sched.takeFinal
      split
      · rename_i finalTx returned hget
        unfold Sched.holds
        rw [Slots.get?_modify]
        by_cases heq : key = key'
        · rw [if_pos heq, heq, hget]
          rfl
        · rw [if_neg heq]
      · rfl
  | _ => rfl

theorem World.recordReturn_other {site : UserSite}
    (hsite : forall key, site ≠ .replyPoll key) (w : World V)
    (value : Option V) : w.recordReturn site value = w := by
  unfold World.recordReturn
  split
  · rename_i key v
    exact absurd rfl (hsite key)
  · rfl

theorem Op.undisturbed {op : Op V α} {input : Input V} {a : α}
    (hbooks : op.books = false) (h : op.exec A input w = some (w', a)) :
    Undisturbed w w' := by
  have hcommitted : forall mode, mode ∈ w.control.committed ->
      mode ∈ w'.control.committed :=
    fun _ => (Op.control_moves h).committed
  have hother (hmail : w'.mail = w.mail)
      (hholds : forall key, w'.sched.holds key = w.sched.holds key) :
      Undisturbed w w' := by
    exact {
      inHand := by rw [hmail]
      admitted := by rw [hmail]; exact fun _ hmem => Or.inl hmem
      queue := by rw [hmail]; exact fun _ hmem => hmem
      dispatched := by rw [hmail]
      rejected := by rw [hmail]
      completed := by rw [hmail]
      returned := by rw [hmail]
      responses := by rw [hmail]
      holds := hholds
      committed := hcommitted }
  cases op with
  | mail op =>
      cases op with
      | close =>
          cases h
          exact {
            inHand := rfl
            admitted := fun _ hmem => Or.inl hmem
            queue := fun _ hmem => hmem
            dispatched := rfl
            rejected := rfl
            completed := rfl
            returned := rfl
            responses := rfl
            holds := fun _ => rfl
            committed := hcommitted }
      | isEmpty =>
          cases h
          exact hother rfl (fun _ => rfl)
      | _ => cases hbooks
  | sched op =>
      cases h
      exact hother rfl (SchedOp.holds_exec (V := V) hbooks)
  | user site =>
      have hsite : forall key, site ≠ .replyPoll key := by
        intro key heq
        rw [heq] at hbooks
        cases hbooks
      cases input with
      | user act =>
          cases act with
          | returns value =>
              cases h
              have hsame := World.recordReturn_other hsite w value
              apply hother
              · show (w.recordReturn site value).mail = w.mail
                rw [hsame]
              · intro key
                show (w.recordReturn site value).sched.holds key = _
                rw [hsame]
          | _ =>
              apply hother
              · grind [Op.exec, World.userStep]
              · have hitems : w'.sched.items = w.sched.items := by
                  grind [Op.exec, World.userStep]
                intro key
                unfold Sched.holds
                rw [hitems]
      | _ => cases h
  | spawn =>
      rw [Op.spawn_exec h] at hother ⊢
      exact hother rfl (fun _ => rfl)
  | _ =>
      have hsame : w'.mail = w.mail ∧ w'.sched = w.sched := by
        grind [Op.exec, World.wakeIf, World.transact]
      apply hother hsame.left
      rw [hsame.right]
      exact fun _ => rfl

theorem Op.open_exec {op : Op V α} {input : Input V} {a : α}
    (hfinishes : op.finishes = false) (h : op.exec A input w = some (w', a))
    (hopen : w.control.mode.isExited = false) :
    w'.control.mode.isExited = false := by
  cases hexited : w'.control.mode.isExited with
  | false => rfl
  | true =>
      rw [Op.exited_exec hfinishes h hexited] at hopen
      cases hopen

theorem Op.finishes_of_books {op : Op V α} (h : op.books = false) :
    op.finishes = false := by
  cases op with
  | transact t =>
      cases t with
      | finish proposed => cases h
      | _ => rfl
  | _ => rfl

theorem Balanced.op_step {op : Op V α} {input : Input V} {a : α}
    (h : Balanced hand debt value w) (hbooks : op.books = false)
    (hexec : op.exec A input w = some (w', a)) :
    Balanced hand debt value w' :=
  h.undisturbed (Op.open_exec (Op.finishes_of_books hbooks) hexec h.mode)
    (Op.undisturbed hbooks hexec)

end Loac

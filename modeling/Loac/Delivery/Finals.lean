import Loac.Capacity.Dispatch
import Loac.Delivery.Outcomes

/-!
# Final values

The value of a handler that owes its caller a response passes the completion
gate.  The final value of a stream whose caller already holds its reply passes
no gate.
-/

namespace Loac

open Interleave Interleave.Prog

variable {V α : Type} {A : ActorConfig} {c c' : ActorState V}
  {w w' : World V} {id : Nat} {key : Key}

/-!
## The gate
-/

/-- A hard mode came before the future of the handler returned. -/
structure Late (id : Nat) (w : World V) : Prop where
  hard : Hard w
  late : (forall v, (id, v) ∉ w.mail.returned) ∨ id ∉ w.mail.completed

theorem MailOp.completed_hard (op : MailOp V α) (transport : Transport)
    {mode : Mode} (reception : Reception) (mail : Mail V)
    (hhard : mode.isHard = true) :
    (op.exec transport mode reception mail).1.completed = mail.completed ∧
      (op.exec transport mode reception mail).1.returned = mail.returned := by
  cases op with
  | beginCompletion id =>
      show (mail.beginCompletion mode id).1.completed = _ ∧
        (mail.beginCompletion mode id).1.returned = _
      unfold Mail.beginCompletion
      cases mode <;> first
        | (cases hhard; done)
        | exact ⟨rfl, rfl⟩
  | _ => grind [MailOp.exec, Mail.pollRecv, Mail.tryRecv, Mail.replyIsClosed,
      Mail.reject, Mail.beginDispatch, Mail.respond]

theorem World.recordReturn_returned (w : World V) (site : UserSite)
    (value : Option V) :
    (w.recordReturn site value).mail.completed = w.mail.completed ∧
      ((w.recordReturn site value).mail.returned = w.mail.returned ∨
        exists key id v, site = .replyPoll key ∧
          w.sched.holds key = some (.caller id) ∧
          (w.recordReturn site value).mail.returned =
            (id, v) :: w.mail.returned) := by
  unfold World.recordReturn
  split
  · rename_i key v
    refine ⟨rfl, ?_⟩
    dsimp only
    split
    · rename_i id hreply
      exact Or.inr ⟨key, id, v, rfl, hreply, rfl⟩
    · exact Or.inl rfl
  · exact ⟨rfl, Or.inl rfl⟩

theorem Late.op_step {op : Op V α} {input : Input V} {a : α}
    (hdemands : DeliveryDemands op w) (hexec : op.exec A input w = some (w', a))
    (h : Late id w) : Late id w' := by
  have hhard : Hard w' := (Op.control_moves hexec).isHard h.hard
  have hsame (hreturned : w'.mail.returned = w.mail.returned)
      (hcompleted : w'.mail.completed = w.mail.completed) : Late id w' := by
    refine ⟨hhard, ?_⟩
    rw [hreturned, hcompleted]
    exact h.late
  cases op with
  | mail op =>
      cases hexec
      have hmail := MailOp.completed_hard op (A.mailbox.getD .unbounded)
        input.reception w.mail h.hard
      exact hsame hmail.right hmail.left
  | user site =>
      cases input with
      | user act =>
          cases act with
          | returns value =>
              cases hexec
              rcases w.recordReturn_returned site value with
                ⟨hcompleted, hreturned | ⟨key, id', v, hsite, hholds, hcons⟩⟩
              · exact hsame hreturned hcompleted
              · subst hsite
                have hopen := hdemands id' hholds
                refine ⟨hhard, ?_⟩
                by_cases heq : id' = id
                · apply Or.inr
                  rw [hcompleted, ← heq]
                  exact hopen
                · rw [hcompleted, hcons]
                  refine h.late.imp_left fun hnone v' hmem => ?_
                  rcases List.mem_cons.mp hmem with hnew | hold
                  · cases hnew
                    exact heq rfl
                  · exact hnone v' hold
          | _ =>
              have hmail : w'.mail = w.mail := by
                grind [Op.exec, World.userStep]
              exact hsame (by rw [hmail]) (by rw [hmail])
      | _ => cases hexec
  | spawn =>
      rw [Op.spawn_exec hexec]
      exact h
  | _ =>
      have hmail : w'.mail = w.mail := by
        grind [Op.exec, World.wakeIf, World.transact]
      exact hsame (by rw [hmail]) (by rw [hmail])

theorem Late.env_step {e : EnvAct} (henv : e.exec A w = some w')
    (h : Late id w) : Late id w' := by
  refine ⟨(EnvAct.control_moves henv).isHard h.hard, ?_⟩
  rcases EnvAct.mail_exec henv with ⟨_, _, _, _, _, _, _, hmail, _, _⟩
  rw [hmail]
  exact h.late

theorem Late.run (hreachable : Reachable A c) (h : Late id c.state)
    (hreach : Machine.Reaches (machine V A) Machine.Anything c c') :
    Late id c'.state := by
  induction hreach with
  | refl => exact h
  | @step middle c' event hfirst _ hstep ih =>
      have hsafe := delivery_safe (hreachable.trans hfirst)
      cases Machine.effect_of_step hstep with
      | nothing hsame =>
          rw [hsame]
          exact ih
      | env e henv => exact Late.env_step henv ih
      | actor op next input b hprog hexec =>
          rcases middle with ⟨w, prog⟩
          change prog = _ at hprog
          subst hprog
          exact Late.op_step hsafe.demands hexec ih

theorem Late.undelivered (hinv : MailInv w) (h : Late id w) (v : V) :
    (id, .ok (some v)) ∉ w.mail.responses := by
  intro hmem
  rcases hinv.told id _ hmem with ⟨_, _, _, _, hcompleted, hreturned⟩
  rcases h.late with hnone | hopen
  · exact hnone v hreturned
  · exact hopen hcompleted

theorem Late.told (hreachable : Reachable A c) (h : Late id c.state)
    {e : Envelope} (hmem : e ∈ c.state.mail.admitted) (hid : e.id = id)
    (hkind : e.kind = .callTo) (hover : isOver c = true) :
    exists error, c.state.mail.outcome id = some (.error error) := by
  have hinv : MailInv c.state := (delivery_safe hreachable).inv
  have hreceiver : e.kind.hasReceiver = true := by
    rw [hkind]
    rfl
  rcases Mail.lookup_of_answered
      ((squared_of_isOver hreachable hover).answered e hmem hreceiver) with
    ⟨response, hlookup⟩
  rw [← hid, hinv.outcome_of_admitted hmem, hlookup]
  have hresponse := Mail.mem_of_lookup hlookup
  cases response with
  | error error => exact ⟨error, rfl⟩
  | ok value =>
      cases value with
      | some v =>
          rw [hid] at hresponse
          exact absurd hresponse (h.undelivered hinv v)
      | none =>
          rcases hinv.told e.id _ hresponse with ⟨e', hmem', hid', _, _, hstream⟩
          have heq : e' = e := hinv.conserved.eq_of_id
            (hinv.conserved.dispatched_admitted hmem') hmem hid'
          change e'.kind = .stream at hstream
          rw [heq, hkind] at hstream
          cases hstream

/-!
## The reply of a stream
-/

/-- The caller was handed the reply of its stream, or it was told an error. -/
def Announced (id : Nat) (w : World V) : Prop :=
  (id ∈ w.mail.completed ∧ (id, .ok none) ∈ w.mail.responses) ∨
    exists error, (id, .error error) ∈ w.mail.responses

theorem Announced.mono (hgrows : w.mail.Grows w'.mail)
    (hresponses : w.mail.responses ⊆ w'.mail.responses)
    (h : Announced id w) : Announced id w' := by
  rcases h with ⟨hcompleted, hreply⟩ | ⟨error, herror⟩
  · exact Or.inl ⟨hgrows.completed id hcompleted, hresponses hreply⟩
  · exact Or.inr ⟨error, hresponses herror⟩

end Loac

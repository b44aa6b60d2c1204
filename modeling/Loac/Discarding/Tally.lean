import Loac.Containment.Repertoire
import Loac.Course.Hints
import Loac.Delivery.Books
import Loac.Interleave.History

/-!
# Discarding a queue

A teardown drops the accepted envelopes one after the other, and starts over
when the mode has changed.  A tally of its operations tells how much it does,
how much of that between two yields, and on which mode test it acts.
-/

namespace Loac

open Interleave

variable {V α β : Type} {A : ActorConfig} {w w' : World V}
  {L : List Envelope} {B : Nat} {E : Mode -> Prop}

structure Tally where
  /-- The operations but for the steps of user code. -/
  operations : Nat
  /-- The envelopes selected since the pass began or yielded. -/
  batch : Nat
  /-- The mode that was expected and found, if the last operation tested it. -/
  found : Option Mode

namespace Tally

def new : Tally where
  operations := 0
  batch := 0
  found := none

def count (tally : Tally) : Tally :=
  { tally with operations := tally.operations + 1, found := none }

end Tally

/-- What an operation adds to the tally.  A pass begins by closing the inbox. -/
def tallied : {α : Type} -> Op V α -> α -> Tally -> Tally
  | _, .user _, _, tally => { tally with found := none }
  | _, .differs expected, false, tally =>
      { tally.count with found := some expected }
  | _, .mail .tryRecv, some _, tally =>
      { tally.count with batch := tally.batch + 1 }
  | _, .mail .close, _, tally => { tally.count with batch := 0 }
  | _, .suspend _, _, tally => { tally.count with batch := 0 }
  | _, _, _, tally => tally.count

abbrev counted (V : Type) (A : ActorConfig) :
    Machine (Op V) (World V × Tally) (Input V) EnvAct Unit :=
  (machine V A).noting fun op _ => tallied op

/-- How often the mode of an actor that ends can still be pressed. -/
def Mode.presses (mode : Mode) : Nat :=
  if mode.isHard then 0 else 1

theorem Mode.Presses.hard {mode next : Mode} (h : mode.Presses next)
    (hclosing : mode ≠ .running) : next.isHard = true := by
  cases h with
  | stop => exact absurd rfl hclosing
  | drain => exact absurd rfl hclosing
  | kill _ => rfl
  | fail _ => rfl

theorem Mode.Presses.spends {mode next : Mode} (h : mode.Presses next)
    (hclosing : mode ≠ .running) : next.presses = 0 ∧ mode.presses = 1 := by
  unfold Mode.presses
  rw [h.hard hclosing, h.soft]
  exact ⟨rfl, rfl⟩

def discardToll : Nat := 9

/-- What is due for the envelopes that are queued, and for every new pass. -/
def World.rest (w : World V) : Nat :=
  discardToll * w.mail.queue.length + 3 * w.control.mode.presses

def World.due (w : World V) (expected : Mode) (spare : Nat) : Nat :=
  w.rest + (if w.control.mode = expected then spare else spare + 3)

/-!
## Steps that select no envelope
-/

structure Eases (w w' : World V) : Prop where
  queue : w'.mail.queue = w.mail.queue
  discarded : w'.mail.discarded = w.mail.discarded
  mode : w'.control.mode = w.control.mode ∨
    w.control.mode.Presses w'.control.mode

theorem Eases.closing (h : Eases w w') (hclosing : Closing w) : Closing w' := by
  cases h.mode with
  | inl hsame =>
      unfold Closing
      rw [hsame]
      exact hclosing
  | inr hpresses => exact (Mode.Advances.press hpresses).ne_running

theorem Eases.rest (h : Eases w w') (hclosing : Closing w) :
    w'.rest <= w.rest := by
  unfold World.rest
  rw [h.queue]
  cases h.mode with
  | inl hsame => exact Nat.le_of_eq (by rw [hsame])
  | inr hpresses =>
      rw [(hpresses.spends hclosing).left]
      omega

theorem Eases.due (h : Eases w w') (hclosing : Closing w) (expected : Mode)
    (spare : Nat) : w'.due expected spare <= w.due expected spare := by
  unfold World.due World.rest
  rw [h.queue]
  cases h.mode with
  | inl hsame => exact Nat.le_of_eq (by rw [hsame])
  | inr hpresses =>
      rw [(hpresses.spends hclosing).left, (hpresses.spends hclosing).right]
      split <;> split <;> omega

theorem EnvAct.eases {e : EnvAct} (hclosing : Closing w)
    (h : e.exec A w = some w') : Eases w w' := by
  rcases EnvAct.mail_exec h with
    ⟨queue, reserved, waker, nextId, admitted, refused, abandoned, hmail, _,
      hqueue⟩
  have hsame : queue = w.mail.queue := by
    rcases hqueue with ⟨hsame, _⟩ | ⟨hrunning, _⟩
    · exact hsame
    · exact absurd hrunning hclosing
  refine ⟨?_, ?_, ?_⟩
  · rw [hmail]
    exact hsame
  · rw [hmail]
  · rcases EnvAct.control_exec h with hcontrol | ⟨next, hpresses, hcontrol⟩
    · exact Or.inl (by rw [hcontrol])
    · apply Or.inr
      rw [hcontrol, Control.commit_mode]
      exact hpresses

/-- The operation takes an envelope out of the queue to discard it. -/
def Op.selects : Op V α -> Bool
  | .mail .tryRecv => true
  | _ => false

theorem Op.ends_discarding {op : Op V α}
    (hparts : discardingParts.contains op.part = true) : op.ends = false := by
  cases op with
  | transact t =>
      cases t with
      | beginAbort => cases hparts
      | finish proposed => cases hparts
      | _ => rfl
  | _ => rfl

theorem Op.eases {op : Op V α} {input : Input V} {a : α}
    (hparts : discardingParts.contains op.part = true)
    (hselects : op.selects = false) (h : op.exec A input w = some (w', a)) :
    Eases w w' := by
  have hmode := Op.control_presses (Op.ends_discarding hparts) h
  cases hmail : op.isMail with
  | false =>
      rcases Op.mail_exec hmail h with ⟨returned, hsame, _⟩
      exact ⟨by rw [hsame], by rw [hsame], hmode⟩
  | true =>
      cases op with
      | mail op =>
          cases h
          cases op with
          | close => exact ⟨rfl, rfl, hmode⟩
          | isEmpty => exact ⟨rfl, rfl, hmode⟩
          | respond id response => exact ⟨rfl, rfl, hmode⟩
          | beginCompletion id =>
              refine ⟨?_, ?_, hmode⟩
              · show (w.mail.beginCompletion w.control.mode id).1.queue = _
                unfold Mail.beginCompletion
                split <;> rfl
              · show (w.mail.beginCompletion w.control.mode id).1.discarded = _
                unfold Mail.beginCompletion
                split <;> rfl
          | tryRecv => cases hselects
          | pollRecv turn => cases hparts
          | replyIsClosed envelope => cases hparts
          | beginDispatch envelope => cases hparts
      | _ => cases hmail

/-!
## The discipline of a discard
-/

/--
The queue is taken from its front and what was taken stands in the ledger.  The
operations are bounded, and no batch is larger than the budget.
-/
structure Discarded (L : List Envelope) (B : Nat) (s : World V × Tally) :
    Prop where
  closing : Closing s.1
  operations : s.2.operations <= B
  ledger : s.1.mail.discarded ++ s.1.mail.queue = L
  batch : s.2.batch <= teardownDropBudget

structure Allowed (B : Nat) (E : Mode -> Prop) (op : Op V α)
    (s : World V × Tally) : Prop where
  parts : discardingParts.contains op.part = true
  operations : op.isUser = false -> s.2.operations < B
  selects : op.selects = true -> s.2.batch < teardownDropBudget ∧
    exists expected, s.2.found = some expected ∧ E expected
  suspends : op.suspends = true -> s.1.task = true

def discardDiscipline (A : ActorConfig) (L : List Envelope) (B : Nat)
    (E : Mode -> Prop) (β : Type) : Discipline ((counted V A).solo β) where
  inv := Discarded L B
  admits := fun _ _ _ => True
  tolerates := fun _ _ => True
  demands := Allowed B E

theorem counted_exec {op : Op V α} {input : Input V} {s s' : World V × Tally}
    {a : α} (h : ((counted V A).solo β).exec op input s = some (s', a)) :
    op.exec A input s.1 = some (s'.1, a) ∧ s'.2 = tallied op a s.2 :=
  @Machine.noting_exec _ _ _ _ _ _ (machine V A) (fun op _ => tallied op)
    _ _ _ _ _ _ h

theorem counted_env {e : EnvAct} {s s' : World V × Tally}
    (h : ((counted V A).solo β).env e s = some s') :
    e.exec A s.1 = some s'.1 ∧ s'.2 = s.2 := by
  have henv : (counted V A).env e s = some s' := h
  exact Machine.noting_env henv

theorem Mail.tryRecv_ledger (mail : Mail V) :
    mail.tryRecv.1.discarded ++ mail.tryRecv.1.queue =
      mail.discarded ++ mail.queue := by
  unfold Mail.tryRecv
  split
  · rfl
  · rename_i envelope rest hqueue
    rw [hqueue]
    exact List.append_assoc ..

theorem tallied_batch {op : Op V α} (hselects : op.selects = false) (a : α)
    (tally : Tally) : (tallied op a tally).batch <= tally.batch := by
  cases op with
  | differs expected => cases a <;> exact Nat.le_refl _
  | mail op =>
      cases op with
      | tryRecv => cases hselects
      | close => exact Nat.zero_le _
      | _ => exact Nat.le_refl _
  | suspend site => exact Nat.zero_le _
  | _ => exact Nat.le_refl _

theorem tallied_user {op : Op V α} (huser : op.isUser = true) (a : α)
    (tally : Tally) : (tallied op a tally).operations = tally.operations := by
  cases op with
  | user site => rfl
  | _ => cases huser

theorem tallied_operations (op : Op V α) (a : α) (tally : Tally) :
    (tallied op a tally).operations <= tally.operations + 1 := by
  cases op with
  | differs expected => cases a <;> exact Nat.le_refl _
  | mail op =>
      cases op with
      | tryRecv => cases a <;> exact Nat.le_refl _
      | _ => exact Nat.le_refl _
  | user site => exact Nat.le_succ _
  | _ => exact Nat.le_refl _

theorem Discarded.op_step {op : Op V α} {input : Input V} {a : α}
    {s s' : World V × Tally} (hs : Discarded L B s) (hop : Allowed B E op s)
    (hexec : ((counted V A).solo β).exec op input s = some (s', a)) :
    Discarded L B s' := by
  rcases counted_exec hexec with ⟨hworld, htally⟩
  have hoperations : s'.2.operations <= B := by
    rw [htally]
    cases huser : op.isUser with
    | true =>
        rw [tallied_user huser]
        exact hs.operations
    | false =>
        exact Nat.le_trans (tallied_operations op a s.2) (hop.operations huser)
  cases hselects : op.selects with
  | false =>
      have heases := Op.eases hop.parts hselects hworld
      exact {
        closing := heases.closing hs.closing
        operations := hoperations
        ledger := by
          rw [heases.discarded, heases.queue]
          exact hs.ledger
        batch := by
          rw [htally]
          exact Nat.le_trans (tallied_batch hselects a s.2) hs.batch }
  | true =>
      cases op with
      | mail op =>
          cases op with
          | tryRecv =>
              have hbatch := (hop.selects rfl).left
              have hlarger : s'.2.batch <= s.2.batch + 1 := by
                rw [htally]
                cases a <;> simp [tallied, Tally.count]
              rcases s' with ⟨w', tally'⟩
              cases hworld
              exact {
                closing := hs.closing
                operations := hoperations
                ledger := (Mail.tryRecv_ledger s.1.mail).trans hs.ledger
                batch := Nat.le_trans hlarger hbatch }
          | _ => cases hselects
      | _ => cases hselects

theorem discard_lawful : (discardDiscipline (V := V) A L B E β).Lawful where
  actor := fun _ _ _ _ _ hs hop _ hexec => Discarded.op_step hs hop hexec
  env := by
    intro e s s' hs _ henv
    rcases counted_env henv with ⟨hworld, htally⟩
    have heases := EnvAct.eases hs.closing hworld
    exact {
      closing := heases.closing hs.closing
      operations := by
        rw [htally]
        exact hs.operations
      ledger := by
        rw [heases.discarded, heases.queue]
        exact hs.ledger
      batch := by
        rw [htally]
        exact hs.batch }

end Loac

import Loac.Containment.Works
import Loac.Discarding.Tally

/-!
# Passes over the queue

Every operation of a discard is paid for by an envelope or by a change of the
mode, and both run out.  A pass ends with an empty queue or when it finds
another mode than the one it works for.
-/

namespace Loac

open Interleave Interleave.Prog

variable {V α β : Type} {A : ActorConfig} {w w' : World V}
  {L : List Envelope} {B batch n : Nat} {E : Mode -> Prop} {X : World V × Tally -> Prop}
  {Φ : World V -> Nat}

/-!
## Funds
-/

structure Funded (B : Nat) (Φ : World V -> Nat) (batch n : Nat)
    (s : World V × Tally) : Prop where
  batch : s.2.batch = batch
  funds : s.2.operations + n + Φ s.1 <= B

/-- What is due does not grow while nothing is selected. -/
def Shrinks (Φ : World V -> Nat) : Prop :=
  forall w w', Closing w -> Eases w w' -> Φ w' <= Φ w

theorem Funded.stable (hΦ : Shrinks Φ) :
    (discardDiscipline A L B E β).Stable (Funded B Φ batch n) := by
  intro e s s' hinv _ henv hs
  rcases counted_env henv with ⟨hworld, htally⟩
  have hless := hΦ _ _ hinv.closing (EnvAct.eases hinv.closing hworld)
  have hfunds := hs.funds
  constructor
  · rw [htally]
    exact hs.batch
  · rw [htally]
    omega

/-- Enough is in reserve for the passes that another mode begins. -/
def Restarts (B : Nat) (s : World V × Tally) : Prop :=
  s.2.operations + 5 + s.1.rest <= B

theorem Funded.mono {m : Nat} {s : World V × Tally} (hle : m <= n)
    (hs : Funded B Φ batch n s) : Funded B Φ batch m s := by
  have hfunds := hs.funds
  exact ⟨hs.batch, by omega⟩

theorem tallied_answer {op : Op V α}
    (hparts : answerParts.contains op.part = true) (a : α) (tally : Tally) :
    (tallied op a tally).batch = tally.batch := by
  cases op with
  | differs expected => cases a <;> rfl
  | mail op =>
      cases op with
      | tryRecv => cases hparts
      | close => cases hparts
      | _ => rfl
  | suspend site => cases site <;> cases hparts
  | _ => rfl

theorem allowed_answer {op : Op V α} {s : World V × Tally}
    (hparts : answerParts.contains op.part = true)
    (hfunds : op.isUser = false -> s.2.operations < B) : Allowed B E op s where
  parts := by
    have hall : answerParts.all discardingParts.contains = true := rfl
    exact List.all_eq_true.mp hall _ (List.contains_iff_mem.mp hparts)
  operations := hfunds
  selects := by
    intro hselects
    cases op with
    | mail op =>
        cases op with
        | tryRecv => cases hparts
        | _ => cases hselects
    | _ => cases hselects
  suspends := by
    intro hsuspends
    cases op with
    | suspend site => cases site <;> cases hparts
    | _ => cases hsuspends

theorem eases_answer {op : Op V α} {input : Input V} {a : α}
    (hparts : answerParts.contains op.part = true)
    (h : op.exec A input w = some (w', a)) : Eases w w' := by
  have hallowed := allowed_answer (B := 1) (E := fun _ => True)
    (s := (w, Tally.new)) hparts (fun _ => Nat.one_pos)
  apply Op.eases hallowed.parts _ h
  cases hselects : op.selects with
  | false => rfl
  | true => exact absurd (hallowed.selects hselects).right (by simp [Tally.new])

theorem Funded.perform (hΦ : Shrinks Φ) {op : Op V α}
    (hparts : answerParts.contains op.part = true) {s : World V × Tally}
    (hs : Funded B Φ batch (n + 1) s) :
    wp (discardDiscipline A L B E β) (Prog.perform op)
      (fun _ => Funded B Φ batch n) X s := by
  apply wp.op (Funded.stable hΦ) hs
  intro s hinv hs
  have hfunds := hs.funds
  constructor
  · exact allowed_answer hparts (fun _ => by omega)
  · intro input s' a _ hexec _
    rcases counted_exec hexec with ⟨hworld, htally⟩
    have hless := hΦ _ _ hinv.closing (eases_answer hparts hworld)
    have hone := tallied_operations op a s.2
    constructor
    · rw [htally, tallied_answer hparts]
      exact hs.batch
    · rw [htally]
      omega

theorem isUser_of_values {op : Op V α}
    (hparts : [Part.values].contains op.part = true) : op.isUser = true := by
  cases op with
  | user site => rfl
  | transact t => cases t <;> cases hparts
  | suspend site => cases site <;> cases hparts
  | reach point => cases point <;> cases hparts
  | sched op => cases op <;> cases hparts
  | mail op => cases op <;> cases hparts
  | kin op => cases op <;> cases hparts
  | _ => cases hparts

theorem Funded.user (hΦ : Shrinks Φ) :
    (repertoire V [.values]).Keeps (discardDiscipline A L B E β)
      (Funded B Φ batch n) where
  stable := Funded.stable hΦ
  op := by
    intro α op hop s hinv hs
    have huser := isUser_of_values hop
    have hparts : answerParts.contains op.part = true := by
      have hall : [Part.values].all answerParts.contains = true := rfl
      exact List.all_eq_true.mp hall _ (List.contains_iff_mem.mp hop)
    constructor
    · apply allowed_answer hparts
      intro hother
      rw [huser] at hother
      cases hother
    · intro input s' a _ hexec _
      rcases counted_exec hexec with ⟨hworld, htally⟩
      have hless := hΦ _ _ hinv.closing (eases_answer hparts hworld)
      have hfunds := hs.funds
      refine ⟨⟨?_, ?_⟩, trivial⟩
      · rw [htally, tallied_answer hparts]
        exact hs.batch
      · rw [htally, tallied_user huser]
        omega

/-!
## One envelope
-/

def Selected (B : Nat) (expected : Mode) (batch : Nat) :
    Option Envelope -> World V × Tally -> Prop
  | none, s => s.1.mail.queue = []
  | some _, s => Funded B (fun w => w.due expected 1) (batch + 1) discardToll s

def AfterPass (B : Nat) : DiscardOutcome -> World V × Tally -> Prop
  | .complete, s => s.1.mail.queue = []
  | .modeChanged, s => Restarts B s

end Loac

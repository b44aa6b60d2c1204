import Loac.Delivery.Disposal
import Loac.Discarding.Passes

/-!
# The end of a discard

A discard ends, in a bounded number of operations and with an empty queue.  Of
a pass, nothing but a mode test that found the expected mode comes between a
transition and one last selection.
-/

namespace Loac

open Interleave Interleave.Prog

variable {V α β : Type} {A : ActorConfig} {w w' : World V}
  {L : List Envelope} {B : Nat} {E : Mode -> Prop} {expected : Mode}

abbrev Counts (A : ActorConfig) (p : P V β) (w : World V)
    (c : Config (Op V) (World V × Tally) β) : Prop :=
  (counted V A).Meets p (w, Tally.new) c

theorem Counts.safe {p : P V β} {Q : β -> World V × Tally -> Prop}
    {X : World V × Tally -> Prop} {c : Config (Op V) (World V × Tally) β}
    (hclosing : Closing w)
    (hwp : wp (discardDiscipline A (w.mail.discarded ++ w.mail.queue) B E β) p
      Q X (w, Tally.new))
    (h : Counts A p w c) :
    Safe (discardDiscipline A (w.mail.discarded ++ w.mail.queue) B E β) Q X c :=
  Machine.Meets.safe discard_lawful (fun _ _ _ => trivial) (fun _ _ => trivial)
    ⟨hclosing, Nat.zero_le _, rfl, Nat.zero_le _⟩ hwp h

def Sweeps (A : ActorConfig) (L : List Envelope) (B : Nat) (expected : Mode)
    (c : Config (Op V) (World V × Tally) DiscardOutcome) : Prop :=
  Safe (discardDiscipline A L B (· = expected) DiscardOutcome)
    (AfterPass B) (fun _ => False) c

theorem Sweeps.step {c c' : Config (Op V) (World V × Tally) DiscardOutcome}
    {event : Event (Input V) EnvAct} (h : Sweeps A L B expected c)
    (hstep : ((counted V A).solo DiscardOutcome).step c event = some c') :
    Sweeps A L B expected c' := by
  apply Safe.run discard_lawful _ h
    (.step event .refl (Discipline.permits_all (fun _ _ _ => trivial)
      (fun _ _ => trivial) c event) hstep)
  intro γ op input p s hcancel
  cases hcancel

end Loac

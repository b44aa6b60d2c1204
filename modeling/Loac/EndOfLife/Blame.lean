import Loac.EndOfLife.Hunting

/-!
# Blame

A panic of user code is blamed on the actor: it fails, and it reports what its
children came to.  There are three exceptions.  The wakers that it invokes for
callers, for clients that wait for capacity, for those who watch its mode and
for its own task belong to others, whose panics are nobody's fault here.  A Kill
that committed first keeps its reason.  The drop of the actor value in its frame
is not contained by the poll that runs it.
-/

namespace Loac

open Interleave

variable {V : Type} {A : ActorConfig} {c : ActorState V} {w : World V}

def Kin.Confirmed (kin : Kin) : Prop :=
  forall key, key < kin.next -> exists status,
    (kin.children key).mode = .exited status ∧ status.subtree = .terminated

/-- A parent without registrations knows whether all its children confirmed. -/
theorem Kin.Faithful.confirmed_iff {kin : Kin} (h : kin.Faithful)
    (hactors : kin.actors = []) :
    kin.subtree = .terminated <-> kin.Confirmed := by
  constructor
  · intro hsubtree key hlt
    have hmem : key ∉ kin.actors := by
      rw [hactors]
      exact List.not_mem_nil
    rcases h.noted key hlt hmem with ⟨status, hexited, hnoted⟩
    refine ⟨status, hexited, ?_⟩
    cases hstatus : status.subtree with
    | terminated => rfl
    | unconfirmed =>
        rw [hnoted hstatus] at hsubtree
        cases hsubtree
  · intro hconfirmed
    cases hsubtree : kin.subtree with
    | terminated => rfl
    | unconfirmed =>
        rcases h.cause hsubtree with ⟨key, status, hlt, hexited, hstatus⟩
        rcases hconfirmed key hlt with ⟨status', hexited', hstatus'⟩
        rw [hexited] at hexited'
        cases hexited'
        rw [hstatus] at hstatus'
        cases hstatus'

def panics : Event (Input Unit) EnvAct :=
  .actor (.user .panics)

/-- A call is accepted before the actor starts, and its reply is constructed. -/
def called : List (Event (Input Unit) EnvAct) :=
  [.env .reserve, .env (.admitEnvelope .call), .actor (.spawn true),
    silent, ready, silent, silent]

def panickedReply : ActorState Unit :=
  (machine Unit sociable).stage .next 100
    (called ++ [panics, silent, silent, silent]) 100 (initial Unit sociable)

end Loac

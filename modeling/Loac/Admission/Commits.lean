import Loac.Admission.Clients
import Loac.Interleave.Commit

/-!
# Nothing happens after an admission

An operation that has enqueued its message has nothing left to do but to tell
its client so.
-/

namespace Loac

open Interleave Interleave.Prog

variable {V M W T α : Type} {A : ActorConfig}

def Accepts : {β : Type} -> ClientOp β -> β -> Prop
  | _, .admitKind _, .accepted _ => True
  | _, _, _ => False

def IsOk {E : Type} (result : Except E α) : Prop :=
  exists a, result = .ok a

def ClientOp.isAdmit : ClientOp α -> Bool
  | .admitKind _ => true
  | _ => false

theorem commits_after {op : ClientOp α} {f : α -> C T} {R : T -> Prop}
    (hop : op.isAdmit = false) (hf : forall a, (f a).Commits Accepts R) :
    Commits Accepts (perform op >>= f) R := by
  apply Commits.seq _ hf
  apply Commits.perform
  intro a ha
  cases op <;> first
    | exact ha
    | cases hop

theorem failTransportClosed_commits {R : α -> Prop} :
    failTransportClosed.Commits Accepts R :=
  commits_after rfl fun _ => Commits.throw

theorem admit_commits {kind : Kind} :
    (admitReserved kind).Commits Accepts IsOk := by
  intro b
  cases b with
  | accepted id => exact ⟨fun _ => ⟨.ok id, rfl, id, rfl⟩, trivial⟩
  | rejected => exact ⟨fun h => h.elim, trivial⟩
  | backendClosed =>
      exact ⟨fun h => h.elim, failTransportClosed_commits⟩

theorem admitInputs_commits {kind : Kind} {inputs : T} :
    (admitInputs kind inputs).Commits Accepts IsOk := by
  apply Commits.bind admit_commits
  · intro result hok
    rcases hok with ⟨id, hresult⟩
    subst hresult
    exact ⟨.ok id, rfl, id, rfl⟩
  · intro result
    cases result with
    | ok id => exact Commits.pure
    | error _ =>
        exact commits_after rfl fun _ => Commits.pure

theorem selectReservation_withholds :
    (selectReservation ()).Withholds Accepts := by
  refine commits_after rfl fun result => ?_
  cases result with
  | reserved => exact Commits.pure
  | closed => exact Commits.pure
  | pending =>
      refine commits_after rfl fun changed => ?_
      cases changed with
      | true => exact Commits.pure
      | false =>
          exact commits_after rfl fun _ => Commits.pure

theorem reserveOwnedCapacity_withholds :
    reserveOwnedCapacity.Withholds Accepts := by
  refine commits_after rfl fun _ => ?_
  refine commits_after rfl fun running => ?_
  cases running with
  | false => exact Commits.pure
  | true =>
      apply Commits.seq (Commits.iter fun _ => selectReservation_withholds)
      intro reservation
      refine commits_after rfl fun _ => ?_
      cases reservation with
      | reserved => exact Commits.pure
      | closed => exact Commits.pure
      | transportClosed =>
          refine commits_after rfl fun running => ?_
          cases running with
          | true => exact Commits.pure
          | false => exact Commits.pure

namespace ActorRef

theorem tryReserving_commits {message : M} {accept : C (Except M Nat)}
    (haccept : accept.Commits Accepts IsOk) :
    (tryReserving message accept).Commits Accepts IsOk := by
  refine commits_after rfl fun result => ?_
  cases result with
  | ok _ =>
      apply Commits.bind haccept
      · intro result hok
        rcases hok with ⟨id, hresult⟩
        subst hresult
        exact ⟨.ok id, rfl, id, rfl⟩
      · intro result
        cases result <;> exact Commits.pure
  | error error =>
      cases error with
      | full =>
          refine commits_after rfl fun running => ?_
          cases running <;> exact Commits.pure
      | closed =>
          refine commits_after rfl fun running => ?_
          cases running with
          | true => exact failTransportClosed_commits
          | false => exact Commits.pure

theorem whenReserved_commits {inputs : T} {accept : C (Except T Nat)}
    (haccept : accept.Commits Accepts IsOk) :
    (whenReserved inputs accept).Commits Accepts IsOk := by
  apply Commits.seq reserveOwnedCapacity_withholds
  intro reservation
  cases reservation with
  | reserved => exact haccept
  | closed => exact Commits.pure
  | transportClosed => exact failTransportClosed_commits

theorem reserving_commits {attempt : C (Except (TryError M) Nat)}
    {accept : M -> C (Except M Nat)}
    (hattempt : attempt.Commits Accepts IsOk)
    (haccept : forall message, (accept message).Commits Accepts IsOk) :
    (reserving attempt accept).Commits Accepts IsOk := by
  apply Commits.bind hattempt
  · intro result hok
    rcases hok with ⟨id, hresult⟩
    subst hresult
    exact ⟨.ok id, rfl, id, rfl⟩
  · intro result
    cases result with
    | ok id => exact Commits.pure
    | error error =>
        rcases error with ⟨kind, message⟩
        cases kind with
        | closed => exact Commits.pure
        | full => exact whenReserved_commits (haccept message)

end ActorRef

theorem answer_commits {E E' R : Type} {p : C (Except E Nat)}
    {f : Except E Nat -> C (Except E' R)} {answer : Except E' R -> Answer M W}
    (hp : p.Commits Accepts IsOk)
    (hok : forall id, exists a, f (.ok id) = .pure (.ok a) ∧
      (answer (.ok a)).accepted = true)
    (herror : forall error, exists a, f (.error error) = .pure a) :
    Commits Accepts (do return answer (← p >>= f))
      (fun answer => answer.accepted = true) := by
  have hf : forall result, exists a, f result = .pure a := by
    intro result
    cases result with
    | ok id =>
        rcases hok id with ⟨a, heq, _⟩
        exact ⟨_, heq⟩
    | error error => exact herror error
  apply Commits.bind (P := fun result => exists a, result = .ok a ∧
    (answer (.ok a)).accepted = true)
  · apply Commits.bind hp
    · intro result h
      rcases h with ⟨id, hresult⟩
      subst hresult
      rcases hok id with ⟨a, heq, haccepted⟩
      exact ⟨_, heq, a, rfl, haccepted⟩
    · intro result
      rcases hf result with ⟨a, heq⟩
      rw [heq]
      exact Commits.pure
  · intro result h
    rcases h with ⟨a, hresult, haccepted⟩
    subst hresult
    exact ⟨_, rfl, haccepted⟩
  · intro result
    exact Commits.pure

theorem run_commits (request : Request M W) :
    request.run.Commits Accepts (fun answer => answer.accepted = true) := by
  cases request with
  | tryCall kind message =>
      exact answer_commits (ActorRef.tryReserving_commits admitInputs_commits)
        (fun _ => ⟨_, rfl, rfl⟩) (fun _ => ⟨_, rfl⟩)
  | trySend message =>
      exact answer_commits (ActorRef.tryReserving_commits admitInputs_commits)
        (fun _ => ⟨_, rfl, rfl⟩) (fun _ => ⟨_, rfl⟩)
  | call kind message =>
      exact answer_commits (ActorRef.reserving_commits
          (ActorRef.tryReserving_commits admitInputs_commits)
          (fun _ => admitInputs_commits))
        (fun _ => ⟨_, rfl, rfl⟩) (fun _ => ⟨_, rfl⟩)
  | send message =>
      exact answer_commits (ActorRef.reserving_commits
          (ActorRef.tryReserving_commits admitInputs_commits)
          (fun _ => admitInputs_commits))
        (fun _ => ⟨_, rfl, rfl⟩) (fun _ => ⟨_, rfl⟩)
  | callTo message out =>
      exact answer_commits (ActorRef.whenReserved_commits admitInputs_commits)
        (fun _ => ⟨_, rfl, rfl⟩) (fun _ => ⟨_, rfl⟩)
  | sendTo message out =>
      exact answer_commits (ActorRef.whenReserved_commits admitInputs_commits)
        (fun _ => ⟨_, rfl, rfl⟩) (fun _ => ⟨_, rfl⟩)

theorem cancel_withholds {op : ClientOp α} {input : ClientInput}
    {p : C (Answer M W)} (h : clientCancel op input = some p) :
    p.Withholds Accepts := by
  unfold clientCancel at h
  split at h
  · cases h
    exact commits_after rfl fun _ => Commits.pure
  · cases h

end Loac

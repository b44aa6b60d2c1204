/-!
# Lifecycle vocabulary

The shutdown requests an actor accepts, the reasons for which it ends, and
the status it publishes at its end.
-/

namespace Loac

inductive Shutdown where
  | stop
  | drain
  | kill
deriving DecidableEq, Repr

inductive ExitReason where
  | stopped
  | drained
  | killed
  | panicked
  | aborted
deriving DecidableEq, Repr

inductive SubtreeStatus where
  | terminated
  | unconfirmed
deriving DecidableEq, Repr

/--
The final outcome of one actor and its subtree.  An actor whose task was
dropped by the executor never confirms its subtree.
-/
structure ExitStatus where
  reason : ExitReason
  subtree : SubtreeStatus
  aborted : reason = .aborted -> subtree = .unconfirmed
deriving DecidableEq

namespace ExitStatus

def new (reason : ExitReason) (subtree : SubtreeStatus) : ExitStatus where
  reason := reason
  subtree :=
    match reason with
    | .aborted => .unconfirmed
    | _ => subtree
  aborted := by
    intro h
    subst h
    rfl

@[simp] theorem reason_new (reason : ExitReason) (subtree : SubtreeStatus) :
    (new reason subtree).reason = reason := rfl

theorem subtree_new_of_ne {reason : ExitReason} (subtree : SubtreeStatus)
    (h : reason ≠ .aborted) : (new reason subtree).subtree = subtree := by
  cases reason with
  | aborted => exact absurd rfl h
  | _ => rfl

end ExitStatus

inductive ShutdownStatus where
  | requested
  | inProgress (shutdown : Shutdown)
  | exited (status : ExitStatus)
deriving DecidableEq

/-- The errors a caller can be told, by the last phase that committed. -/
inductive CallError where
  | closed
  | beforeDispatch (reason : ExitReason)
  | duringDispatch (reason : ExitReason)
  | responseLost
deriving DecidableEq, Repr

end Loac

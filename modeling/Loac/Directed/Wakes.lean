import Loac.Directed.Turns
import Loac.Idling.Waits

/-!
# Directed wakes

In every run in which wakes find the task, an actor that sleeps in a turn has
polled every reply after the wakes that are over, and no reply is polled more
often than it was woken.  Two wakes of one reply that overtake each other leave
an actor asleep that should poll it.
-/

namespace Loac

open Interleave Interleave.Prog

variable {V : Type} {A : ActorConfig} {w : World V} {key : Key}

def Followed (key : Key) (w : World V) : Prop :=
  w.sched.isLive key = true -> forall call, call ∈ w.sched.finished ->
    call.key = key -> call.seen < w.sched.polls key

def Parked (c : ActorState V) : Prop :=
  suspendedAt c = some (.turn .running) ∧ c.state.control.mode = .running ∧
    c.state.task = false

structure NothingMissed (A : ActorConfig) (w : World V) : Prop where
  exits : w.sched.lease = none -> w.kin.events = []
  inbox : w.sched.lease = none ->
    hasCapacity A w.sched.items.length = false ∨ w.mail.queue = []
  replies : w.sched.lease = none -> forall key, Followed key w
  holder : forall key, w.sched.lease = some key -> Followed key w

def Paid (w : World V) : Prop :=
  forall key, w.sched.polls key <= 1 + (w.sched.wakes key).sets

theorem Sated.followed (h : Sated key w) (hledger : w.sched.Ledger)
    (hasleep : w.task = false) : Followed key w := by
  intro hlive call hmem hkey
  have hseen := hledger.seen call (List.mem_append_right _ hmem)
  rw [hkey] at hseen
  apply Nat.lt_of_le_of_ne hseen
  exact fun hsame => (h hlive hasleep).right ⟨call, hmem, hkey, hsame⟩

theorem Sched.Ledger.paid (h : w.sched.Ledger) : Paid w := by
  intro key
  have hcounts := h.counts key
  have hmarked := h.marked key
  omega

/-- The runs in which wakes find the task. -/
abbrev Rousing (V : Type) (A : ActorConfig) :
    ActorState V -> Event (Input V) EnvAct -> Prop :=
  (directed V A).Permits

/--
In every run in which a wake that takes its last step finds the task, and a
reply is marked only when its wakes have queued its key, a parked actor has
missed nothing, and no poll was for nothing.
-/
theorem wakes_directed (V : Type) (A : ActorConfig) (hmailbox : A.mailbox ≠ none)
    (c : ActorState V)
    (h : Machine.Reaches (machine V A) (Rousing V A) (initial V A) c) :
    (Parked c -> NothingMissed A c.state) ∧ Paid c.state := by
  have hsafe := directed_safe hmailbox h
  have hledger : c.state.sched.Ledger := hsafe.inv
  refine ⟨?_, hledger.paid⟩
  rintro ⟨hsuspended, _, hasleep⟩
  rcases c with ⟨w, prog⟩
  unfold suspendedAt at hsuspended
  dsimp only at hsuspended
  split at hsuspended
  · injection hsuspended with heq
    subst heq
    have hseen : AllSeen A w := hsafe.demands
    constructor
    · exact fun hfree => (hseen.exits hfree hasleep).left
    · exact fun hfree => (hseen.inbox hfree hasleep).imp_right And.left
    · exact fun hfree key => (hseen.sated hfree key).followed hledger hasleep
    · exact fun key hheld => (hseen.holder key hheld).followed hledger hasleep
  · cases hsuspended

/-- Whether all wakes of a reply have queued its key. -/
def Sched.pushed (sched : Sched) (key : Key) : Bool :=
  sched.calls.all fun call => call.key ≠ key || !call.push

theorem Sched.not_pushing {sched : Sched} (h : sched.pushed key = true) :
    ¬ sched.Pushing key := by
  rintro ⟨call, hmem, hkey, hpush⟩
  have hcall := List.all_eq_true.mp h call hmem
  simp [hkey, hpush] at hcall

def rouses (c : ActorState V) : Event (Input V) EnvAct -> Bool
  | .env (.notifyWake index) =>
      match c.state.sched.calls[index]? with
      | some call =>
          c.state.sched.pushed call.key &&
            (c.state.sched.wakes call.key).task
      | none => true
  | .env _ => true
  | .actor _ =>
      match c.prog with
      | .act (.sched (.markReady key)) _ => c.state.sched.pushed key
      | _ => true

theorem rouses_rousing (c : ActorState V) (event : Event (Input V) EnvAct)
    (h : rouses c event = true) : Rousing V A c event := by
  cases event with
  | env e =>
      cases e with
      | notifyWake index =>
          intro call hcall _
          unfold rouses at h
          dsimp only at h
          rw [hcall] at h
          have hboth := Bool.and_eq_true_iff.mp h
          exact ⟨Sched.not_pushing hboth.left, Or.inl hboth.right⟩
      | _ => trivial
  | actor input =>
      unfold Rousing Discipline.Permits
      unfold rouses at h
      dsimp only
      split
      · rename_i op next hprog
        rw [hprog] at h
        cases op with
        | sched op =>
            cases op with
            | markReady key => exact Sched.not_pushing h
            | _ => trivial
        | _ => trivial
      · trivial

def polledTwice : ActorState Unit :=
  (machine Unit sociable).stage .next 100
    (pendingCall ++ wakesFirst ++ [silent]) 100 (initial Unit sociable)

theorem polledTwice_directed :
    Parked polledTwice ∧ NothingMissed sociable polledTwice.state ∧
      Paid polledTwice.state := by
  have hparked : Parked polledTwice := by
    unfold Parked
    decide +kernel
  have hdirected := wakes_directed Unit sociable (by simp [sociable]) polledTwice
    (Machine.stage_permitted rouses_rousing (by decide +kernel))
  exact ⟨hparked, hdirected.left hparked, hdirected.right⟩

/--
Two threads wake a pending reply.  The first one sets the flag, the second one
finds it set and takes the waker away, and the actor finds no key.
-/
def overtakenWake : ActorState Unit :=
  (machine Unit sociable).stage .next 100
    (pendingCall ++ [.env (.notifySwap 0), .env (.notifySwap 0),
      .env (.notifyWake 1)]) 100 (initial Unit sociable)

/-- The first thread queues the key, and finds no waker. -/
def lostWake : ActorState Unit :=
  (machine Unit sociable).stage .next 0
    [.env (.notifyPush 0), .env (.notifyWake 0)] 0 overtakenWake

/-- The actor sleeps, both wakes are over, and no poll has followed. -/
theorem lostWake_missed :
    Reachable sociable lostWake ∧ Parked lostWake ∧
      lostWake.state.sched.lease = none ∧ ¬ Followed 0 lostWake.state ∧
      ¬ NothingMissed sociable lostWake.state := by
  have hreach : Reachable sociable overtakenWake :=
    Machine.stage_reaches (fun _ => trivial) (fun _ _ _ => trivial) _ _ _
  have hfree : lostWake.state.sched.lease = none := by decide +kernel
  have hmissed : ¬ Followed 0 lostWake.state := by
    intro hfollowed
    have hcall : lostWake.state.sched.finished.head? =
        some { key := 0, push := false, seen := 1 } := by decide +kernel
    have hseen := hfollowed (by decide +kernel) _
      (List.mem_of_mem_head? hcall) rfl
    have hpolls : lostWake.state.sched.polls 0 = 1 := by decide +kernel
    rw [hpolls] at hseen
    exact Nat.lt_irrefl _ hseen
  refine ⟨hreach.trans (Machine.stage_reaches (fun _ => trivial)
    (fun _ _ _ => trivial) _ _ _), ?_, hfree, hmissed, ?_⟩
  · unfold Parked
    decide +kernel
  · exact fun hnothing => hmissed (hnothing.replies hfree 0)

end Loac

import Loac.Admission.Discipline

/-!
# What a client is told

Every operation of a client ends in one of three ways.  Its message was
enqueued, or the gate was closed, or there was no capacity while the gate was
open.  In the last two cases the message comes back to the client.
-/

namespace Loac

open Interleave Interleave.Prog

variable {V M W T α : Type} {A : ActorConfig} {waits : Bool} {v v' : View V}
  {X : View V -> Prop}

/-!
## What lasts
-/

def Barred (v : View V) : Prop :=
  Unsent v ∧ Closing v.world

def Denied (v : View V) : Prop :=
  Unsent v ∧ exists rest,
    v.station.observed = .reservation .full :: rest

def Crowded (v : View V) : Prop :=
  Unsent v ∧ v.station.opened = true ∧ exists rest,
    v.station.observed = .running true :: .reservation .full :: rest

def Sent (id : Nat) (v : View V) : Prop :=
  v.station.opened = true ∧
    exists e, v.station.enqueued = some e ∧ e.id = id

def Subscribed (v : View V) : Prop :=
  Unsent v ∧ exists n, v.station.seen = some n ∧
    (v.world.control.mode = .running -> n = v.world.control.changes)

def Waiting (v : View V) : Prop :=
  Unsent v ∧ exists n, v.station.seen = some n ∧
    (Closing v.world <-> n < v.world.control.changes)

theorem stable_of_passes {P : View V -> Prop}
    (h : forall v v', ViewInv v -> v.Passes v' -> P v -> P v') :
    (clientDiscipline V M W A waits).Stable P := by
  intro e v v' hinv htolerates henv hv
  exact h v v' hinv (ViewAct.passes htolerates henv) hv

theorem Unsent.passes (h : Unsent v) (hpasses : v.Passes v') : Unsent v' :=
  hpasses.enqueued.trans h

theorem unsent_stable : (clientDiscipline V M W A waits).Stable Unsent :=
  stable_of_passes fun _ _ _ hpasses h => h.passes hpasses

theorem barred_stable : (clientDiscipline V M W A waits).Stable Barred :=
  stable_of_passes fun _ _ _ hpasses h =>
    ⟨h.left.passes hpasses, hpasses.world.closing h.right⟩

theorem denied_stable : (clientDiscipline V M W A waits).Stable Denied := by
  apply stable_of_passes
  intro v v' _ hpasses h
  refine ⟨h.left.passes hpasses, ?_⟩
  rw [hpasses.observed]
  exact h.right

theorem Crowded.passes (h : Crowded v) (hpasses : v.Passes v') :
    Crowded v' := by
  refine ⟨h.left.passes hpasses, ?_⟩
  rw [hpasses.opened, hpasses.observed]
  exact h.right

theorem Control.Moves.untouched {control control' : Control}
    (h : control.Moves control') (hrunning : control'.mode = .running) :
    control.mode = .running ∧ control'.changes = control.changes := by
  cases h with
  | stays hmode hcommitted =>
      refine ⟨hmode.symm.trans hrunning, ?_⟩
      unfold Control.changes
      rw [hcommitted]
  | advances hadvances _ => exact absurd hrunning hadvances.ne_running

theorem subscribed_stable : (clientDiscipline V M W A waits).Stable Subscribed := by
  apply stable_of_passes
  intro v v' _ hpasses h
  rcases h.right with ⟨n, hseen, hcurrent⟩
  refine ⟨h.left.passes hpasses, n, hpasses.seen.trans hseen, ?_⟩
  intro hrunning
  have hsame := hpasses.world.untouched hrunning
  rw [hsame.right]
  exact hcurrent hsame.left

theorem waiting_stable : (clientDiscipline V M W A waits).Stable Waiting := by
  apply stable_of_passes
  intro v v' hinv hpasses h
  rcases h.right with ⟨n, hseen, hiff⟩
  refine ⟨h.left.passes hpasses, n, hpasses.seen.trans hseen, ?_⟩
  constructor
  · intro hclosing
    by_cases hbefore : v.world.control.mode = .running
    · exact Nat.lt_of_le_of_lt (hinv.seen n hseen)
        (hpasses.world.changes_lt hbefore hclosing)
    · exact Nat.lt_of_lt_of_le (hiff.mp hbefore) hpasses.world.changes
  · intro hlt hrunning
    have hsame := hpasses.world.untouched hrunning
    rw [hsame.right] at hlt
    exact hiff.mpr hlt hsame.left

theorem attentive_stable :
    (clientDiscipline V M W A waits).Stable (fun v => Waiting v ∧
      (v.station.task = true ∨ v.station.registered = true)) := by
  apply Discipline.Stable.and waiting_stable
  exact stable_of_passes fun _ _ _ hpasses => hpasses.attentive

/-!
## Admission
-/

/-- The inputs come back unless their envelope was enqueued. -/
def Delivers (inputs : T) : Except T Nat -> View V -> Prop
  | .ok id, v => Sent id v
  | .error value, v => value = inputs ∧ Barred v

/-- What a client knows whose reserved inputs were offered. -/
def Admission.Tells : Admission -> View V -> Prop
  | .accepted id, v => Sent id v
  | .rejected, v => Barred v
  | .backendClosed, _ => False

theorem admit_delivers {kind : Kind} (h : Unsent v) :
    wp (clientDiscipline V M W A waits) (admitReserved kind)
      (fun result => Delivers () result) X v := by
  apply wp.seq (R := Admission.Tells)
  · refine wp_client unsent_stable h (fun _ _ h => h) ?_
    intro v v' result hinv h heffect
    rcases heffect with ⟨hrunning, hclosed, _⟩ |
      ⟨hrunning, w, hexec, hresult, hv'⟩ | ⟨hclosing, w, hexec, hresult, hv'⟩
    · exact absurd hrunning (hinv.gated hclosed)
    · subst hresult hv'
      exact ⟨hinv.opened hrunning, _, rfl, rfl⟩
    · subst hresult hv'
      exact ⟨h, (EnvAct.control_moves hexec).closing hclosing⟩
  · intro result v hv
    cases result with
    | accepted id => exact wp.pure hv
    | rejected => exact wp.pure ⟨rfl, hv⟩
    | backendClosed => exact hv.elim

theorem admitInputs_delivers {kind : Kind} (inputs : T) (h : Unsent v) :
    wp (clientDiscipline V M W A waits) (admitInputs kind inputs)
      (Delivers inputs) X v := by
  apply wp.seq (admit_delivers h)
  intro result v hv
  cases result with
  | ok id => exact wp.pure hv
  | error _ =>
      apply wp.seq (R := fun _ => Barred)
      · refine wp_client barred_stable hv.right (fun _ _ _ => trivial) ?_
        intro v v' _ _ h heffect
        rcases heffect with ⟨w, hexec, hv'⟩
        subst hv'
        exact ⟨h.left, (EnvAct.control_moves hexec).closing h.right⟩
      · intro _ v hv
        exact wp.pure ⟨rfl, hv⟩

/-!
## Waiting for capacity
-/

def Gets : CapacityReservation -> View V -> Prop
  | .reserved, v => Unsent v
  | .closed, v => Barred v
  | .transportClosed, v => Barred v

theorem gets_stable (reservation : CapacityReservation) :
    (clientDiscipline V M W A waits).Stable (Gets reservation) := by
  cases reservation with
  | reserved => exact unsent_stable
  | closed => exact barred_stable
  | transportClosed => exact barred_stable

theorem Waiting.barred (h : Waiting v) (hclosing : Closing v.world) : Barred v :=
  ⟨h.left, hclosing⟩

def ReservePoll.Tells : ReservePoll -> View V -> Prop
  | .pending, v => Waiting v
  | .reserved, v => Unsent v
  | .closed, v => Barred v

/-- What a client knows that has asked for a change of the mode. -/
def Notices : Bool -> View V -> Prop
  | true, v => Barred v
  | false, v => Waiting v ∧
      (v.station.task = true ∨ v.station.registered = true)

theorem selectReservation_waits (h : Waiting v) :
    wp (clientDiscipline V M W A true) (selectReservation ())
      (fun round v =>
        match round with
        | .inl () => Waiting v
        | .inr reservation => Gets reservation v) X v := by
  apply wp.seq (R := ReservePoll.Tells)
  · refine wp_client waiting_stable h (fun _ _ _ => trivial) ?_
    intro v v' result hinv h heffect
    rcases heffect with ⟨w, _, hresult, hv'⟩ | ⟨hresult, hv'⟩ |
      ⟨hclosed, hresult, hv'⟩ <;> subst hresult hv'
    · exact h.left
    · exact h
    · exact h.barred (hinv.gated hclosed)
  · intro result v hv
    cases result with
    | reserved => exact wp.done hv
    | closed => exact wp.done hv
    | pending =>
        apply wp.seq (R := Notices)
        · refine wp_client waiting_stable hv (fun _ _ _ => trivial) ?_
          intro v v' changed hinv h heffect
          rcases heffect with ⟨_, hresult, hv'⟩ | ⟨hne, hresult, hv'⟩ <;>
            subst hresult hv'
          · exact ⟨h, Or.inr rfl⟩
          · rcases h.right with ⟨n, hseen, hiff⟩
            refine ⟨h.left, hiff.mpr ?_⟩
            apply Nat.lt_of_le_of_ne (hinv.seen n hseen)
            intro heq
            exact hne (hseen.trans (congrArg some heq))
        · intro changed v hv
          cases changed with
          | true => exact wp.done hv
          | false =>
              apply wp.seq (R := fun _ => Waiting)
              · apply wp_client attentive_stable hv
                · intro v _ h
                  rcases h.left.right with ⟨n, hseen, hiff⟩
                  refine ⟨rfl, h.left.left, ?_⟩
                  exact h.right.imp_right
                    (fun hregistered => ⟨hregistered, n, hseen, hiff.mp⟩)
                · intro v v' _ _ h heffect
                  rcases heffect with ⟨_, hv'⟩
                  subst hv'
                  exact h.left
              · intro _ v hv
                exact wp.again hv

/-- Asking the gate once more tells apart what the mode says. -/
theorem isRunning_asks {P R : View V -> Prop}
    (hstable : (clientDiscipline V M W A waits).Stable P) (h : P v)
    (hrunning : forall v, ViewInv v -> P v -> v.world.control.mode = .running ->
      R (v.setStation (v.station.observe (.running true))))
    (hclosing : forall v, P v -> Unsent v) :
    wp (clientDiscipline V M W A waits) (perform .isRunning)
      (fun running v =>
        match running with
        | true => R v
        | false => Barred v) X v := by
  refine wp_client hstable h (fun _ _ _ => trivial) ?_
  intro v v' running hinv h heffect
  rcases heffect with ⟨hresult, hv'⟩
  subst hv'
  by_cases hmode : v.world.control.mode = .running
  · rw [decide_eq_true hmode] at hresult
    subst hresult
    exact hrunning v hinv h hmode
  · rw [decide_eq_false hmode] at hresult
    subst hresult
    exact ⟨hclosing v h, hmode⟩

theorem reserveOwnedCapacity_gets (h : Unsent v) :
    wp (clientDiscipline V M W A true) reserveOwnedCapacity
      (fun reservation v => Gets reservation v ∧
        reservation ≠ .transportClosed) X v := by
  apply wp.seq (R := fun _ => Subscribed)
  · refine wp_client unsent_stable h (fun _ _ _ => trivial) ?_
    intro v v' _ _ h heffect
    cases heffect
    exact ⟨h, _, rfl, fun _ => rfl⟩
  intro _ v hv
  apply wp.seq (isRunning_asks (R := Waiting) subscribed_stable hv _
    (fun _ h => h.left))
  · intro running v hv
    cases running with
    | false => exact wp.pure ⟨hv, by simp⟩
    | true =>
        apply wp.seq (R := fun reservation v => Gets reservation v)
        · apply wp.iter (fun _ => Waiting) hv
          intro _ v hv
          refine wp.mono ?_ (fun _ hX => hX) (selectReservation_waits hv)
          intro round v hv
          cases round with
          | inl _ => exact hv
          | inr _ => exact hv
        intro reservation v hv
        apply wp.seq (R := fun _ => Gets reservation)
        · refine wp_client (gets_stable reservation) hv (fun _ _ _ => trivial) ?_
          intro v v' _ _ h heffect
          cases heffect
          cases reservation <;> exact h
        intro _ v hv
        cases reservation with
        | reserved => exact wp.pure ⟨hv, by simp⟩
        | closed => exact wp.pure ⟨hv, by simp⟩
        | transportClosed =>
            apply wp.seq (isRunning_asks (R := fun _ => False) barred_stable hv
              (fun _ _ h hmode => h.right hmode) (fun _ h => h.left))
            intro running v hv
            cases running with
            | true => exact hv.elim
            | false => exact wp.pure ⟨hv, by simp⟩
  · intro v _ h hmode
    rcases h.right with ⟨n, hseen, hcurrent⟩
    refine ⟨h.left, n, hseen, ?_⟩
    constructor
    · exact fun hclosing => absurd hmode hclosing
    · intro hlt
      rw [hcurrent hmode] at hlt
      exact absurd hlt (Nat.lt_irrefl _)

/-!
## Sending
-/

def Tries (message : M) : Except (TryError M) Nat -> View V -> Prop
  | .ok id, v => Sent id v
  | .error error, v => error.message = message ∧
      match error.kind with
      | .full => Crowded v
      | .closed => Barred v

namespace ActorRef

theorem tryReserving_tries {message : M} {accept : C (Except M Nat)}
    (haccept : forall v, Unsent v -> wp (clientDiscipline V M W A waits) accept
      (Delivers message) X v) (h : Unsent v) :
    wp (clientDiscipline V M W A waits) (tryReserving message accept)
      (Tries message) X v := by
  apply wp.seq (R := fun result v =>
    match result with
    | .ok () => Unsent v
    | .error .full => Denied v
    | .error .closed => Barred v)
  · refine wp_client unsent_stable h (fun _ _ _ => trivial) ?_
    intro v v' result hinv h heffect
    rcases heffect with ⟨w, _, hresult, hv'⟩ | ⟨hresult, hv'⟩ |
      ⟨hclosed, hresult, hv'⟩ <;> subst hresult hv'
    · exact h
    · exact ⟨h, _, rfl⟩
    · exact ⟨h, hinv.gated hclosed⟩
  · intro result v hv
    cases result with
    | ok _ =>
        apply wp.seq (haccept v hv)
        intro result v hv
        cases result with
        | ok id => exact wp.pure hv
        | error message => exact wp.pure hv
    | error error =>
        cases error with
        | full =>
            apply wp.seq (isRunning_asks (R := Crowded) denied_stable hv _
              (fun _ h => h.left))
            · intro running v hv
              cases running with
              | true => exact wp.pure ⟨rfl, hv⟩
              | false => exact wp.pure ⟨rfl, hv⟩
            · intro v hinv h hmode
              rcases h.right with ⟨rest, hobserved⟩
              refine ⟨h.left, hinv.opened hmode, rest, ?_⟩
              exact congrArg _ hobserved
        | closed =>
            apply wp.seq (isRunning_asks (R := fun _ => False) barred_stable hv
              (fun _ _ h hmode => h.right hmode) (fun _ h => h.left))
            intro running v hv
            cases running with
            | true => exact hv.elim
            | false => exact wp.pure ⟨rfl, hv⟩

theorem whenReserved_delivers {inputs : T} {accept : C (Except T Nat)}
    (haccept : forall v, Unsent v -> wp (clientDiscipline V M W A true) accept
      (Delivers inputs) X v) (h : Unsent v) :
    wp (clientDiscipline V M W A true) (whenReserved inputs accept)
      (Delivers inputs) X v := by
  apply wp.seq (reserveOwnedCapacity_gets h)
  intro reservation v hv
  cases reservation with
  | reserved => exact haccept v hv.left
  | closed => exact wp.pure ⟨rfl, hv.left⟩
  | transportClosed => exact absurd rfl hv.right

theorem reserving_delivers {message : M} {kind : Kind}
    {attempt : C (Except (TryError M) Nat)}
    (hattempt : forall v, Unsent v -> wp (clientDiscipline V M W A true) attempt
      (Tries message) X v) (h : Unsent v) :
    wp (clientDiscipline V M W A true) (reserving attempt (admitInputs kind))
      (Delivers message) X v := by
  apply wp.seq (hattempt v h)
  intro result v hv
  cases result with
  | ok id => exact wp.pure hv
  | error error =>
      rcases error with ⟨errorKind, value⟩
      rcases hv with ⟨heq, hv⟩
      change value = message at heq
      subst heq
      cases errorKind with
      | closed => exact wp.pure ⟨rfl, hv⟩
      | full =>
          exact whenReserved_delivers
            (fun _ h => admitInputs_delivers value h) hv.left

end ActorRef

/-!
## Answers
-/

structure Told (request : Request M W) (answer : Answer M W) (v : View V) :
    Prop where
  answers : request.Answers answer
  accepted : answer.accepted = true -> v.station.opened = true ∧
    v.station.enqueued.isSome = true
  refused : answer.accepted = false -> Unsent v
  receiver : forall receiver, answer.receiver = some receiver ->
    v.station.enqueued.map Envelope.id = some receiver.id
  closed : answer.isClosed = true -> Closing v.world
  full : answer.isFull = true -> Crowded v

theorem Told.sent {request : Request M W} {answer : Answer M W} {id : Nat}
    (hanswers : request.Answers answer) (haccepted : answer.accepted = true)
    (hreceiver : forall receiver, answer.receiver = some receiver ->
      receiver.id = id) (hclosed : answer.isClosed = false)
    (hfull : answer.isFull = false) (h : Sent id v) :
    Told request answer v where
  answers := hanswers
  accepted := by
    intro _
    rcases h.right with ⟨e, henqueued, _⟩
    exact ⟨h.left, by rw [henqueued]; rfl⟩
  refused := by
    intro hrefused
    rw [haccepted] at hrefused
    cases hrefused
  receiver := by
    intro receiver hsome
    rcases h.right with ⟨e, henqueued, hid⟩
    rw [henqueued, hreceiver receiver hsome, ← hid]
    rfl
  closed := by
    intro h
    rw [hclosed] at h
    cases h
  full := by
    intro h
    rw [hfull] at h
    cases h

theorem Told.barred {request : Request M W} {answer : Answer M W}
    (hanswers : request.Answers answer) (haccepted : answer.accepted = false)
    (hreceiver : answer.receiver = none) (hfull : answer.isFull = false)
    (h : Barred v) : Told request answer v where
  answers := hanswers
  accepted := by
    intro h
    rw [haccepted] at h
    cases h
  refused := fun _ => h.left
  receiver := by
    intro receiver hsome
    rw [hreceiver] at hsome
    cases hsome
  closed := fun _ => h.right
  full := by
    intro h
    rw [hfull] at h
    cases h

theorem Told.crowded {request : Request M W} {answer : Answer M W}
    (hanswers : request.Answers answer) (haccepted : answer.accepted = false)
    (hreceiver : answer.receiver = none) (hclosed : answer.isClosed = false)
    (h : Crowded v) : Told request answer v where
  answers := hanswers
  accepted := by
    intro h
    rw [haccepted] at h
    cases h
  refused := fun _ => h.left
  receiver := by
    intro receiver hsome
    rw [hreceiver] at hsome
    cases hsome
  closed := by
    intro h
    rw [hclosed] at h
    cases h
  full := fun _ => h

theorem run_tells (request : Request M W) (h : Unsent v) :
    wp (clientDiscipline V M W A request.waits) request.run (Told request) X
      v := by
  cases request with
  | tryCall kind message =>
      apply wp.seq (R := fun result => Told (.tryCall kind message)
        (.tryCall result))
      · apply wp.seq (ActorRef.tryReserving_tries
          (fun _ h => admitInputs_delivers message h) h)
        intro result v hv
        cases result with
        | ok id =>
            exact wp.pure (Told.sent (fun _ h => by cases h) rfl
              (fun _ h => by cases h; rfl) rfl rfl hv)
        | error error =>
            rcases error with ⟨errorKind, value⟩
            have hanswers : Request.Answers (.tryCall kind message)
                (.tryCall (.error ⟨errorKind, value⟩) : Answer M W) := by
              intro error herror
              cases herror
              exact hv.left
            cases errorKind with
            | full => exact wp.pure (Told.crowded hanswers rfl rfl rfl hv.right)
            | closed => exact wp.pure (Told.barred hanswers rfl rfl rfl hv.right)
      · exact fun _ _ hv => wp.pure hv
  | trySend message =>
      apply wp.seq (R := fun result => Told (.trySend message)
        (.trySend result))
      · apply wp.seq (ActorRef.tryReserving_tries
          (fun _ h => admitInputs_delivers message h) h)
        intro result v hv
        cases result with
        | ok id =>
            exact wp.pure (Told.sent (fun _ h => by cases h) rfl
              (fun _ h => by cases h) rfl rfl hv)
        | error error =>
            rcases error with ⟨errorKind, value⟩
            have hanswers : Request.Answers (.trySend message)
                (.trySend (.error ⟨errorKind, value⟩) : Answer M W) := by
              intro error herror
              cases herror
              exact hv.left
            cases errorKind with
            | full => exact wp.pure (Told.crowded hanswers rfl rfl rfl hv.right)
            | closed => exact wp.pure (Told.barred hanswers rfl rfl rfl hv.right)
      · exact fun _ _ hv => wp.pure hv
  | call kind message =>
      apply wp.seq (R := fun result =>
        Told (.call kind message : Request M W) (.call result))
      · apply wp.seq (ActorRef.reserving_delivers
          (fun _ h => ActorRef.tryReserving_tries
            (fun _ h => admitInputs_delivers message h) h) h)
        intro result v hv
        cases result with
        | ok id =>
            exact wp.pure (Told.sent (fun _ h => by cases h) rfl
              (fun _ h => by cases h; rfl) rfl rfl hv)
        | error value =>
            exact wp.pure (Told.barred (fun _ h => by cases h; rfl) rfl rfl rfl
              hv.right)
      · exact fun _ _ hv => wp.pure hv
  | send message =>
      apply wp.seq (R := fun result =>
        Told (.send message : Request M W) (.send result))
      · apply wp.seq (ActorRef.reserving_delivers
          (fun _ h => ActorRef.tryReserving_tries
            (fun _ h => admitInputs_delivers message h) h) h)
        intro result v hv
        cases result with
        | ok id =>
            exact wp.pure (Told.sent (fun _ h => by cases h) rfl
              (fun _ h => by cases h) rfl rfl hv)
        | error value =>
            exact wp.pure (Told.barred (fun _ h => by cases h; exact hv.left)
              rfl rfl rfl hv.right)
      · exact fun _ _ hv => wp.pure hv
  | callTo message out =>
      apply wp.seq (R := fun result => Told (.callTo message out)
        (.callTo result))
      · apply wp.seq (ActorRef.whenReserved_delivers
          (fun _ h => admitInputs_delivers (message, out) h) h)
        intro result v hv
        cases result with
        | ok id =>
            exact wp.pure (Told.sent (fun _ h => by cases h) rfl
              (fun _ h => by cases h; rfl) rfl rfl hv)
        | error value =>
            exact wp.pure (Told.barred (fun _ h => by cases h; rfl) rfl rfl rfl
              hv.right)
      · exact fun _ _ hv => wp.pure hv
  | sendTo message out =>
      apply wp.seq (R := fun result => Told (.sendTo message out)
        (.sendTo result))
      · apply wp.seq (ActorRef.whenReserved_delivers
          (fun _ h => admitInputs_delivers (message, out) h) h)
        intro result v hv
        cases result with
        | ok id =>
            exact wp.pure (Told.sent (fun _ h => by cases h) rfl
              (fun _ h => by cases h) rfl rfl hv)
        | error value =>
            rcases value with ⟨value, out'⟩
            rcases hv with ⟨heq, hv⟩
            cases heq
            exact wp.pure (Told.barred (fun _ h => by cases h; exact ⟨rfl, rfl⟩)
              rfl rfl rfl hv)
      · exact fun _ _ hv => wp.pure hv

theorem client_cancels (request : Request M W) :
    Safe.Cancels (clientDiscipline V M W A request.waits) (Told request)
      (fun _ => False) := by
  intro β op input p v hcancel _ hdemands _
  cases op with
  | suspend =>
      cases input with
      | cancel =>
          cases hcancel
          have hdemands : request.waits = true ∧ Unsent v ∧ Attentive v :=
            hdemands
          apply wp.seq (R := fun _ => Unsent)
          · refine wp_client unsent_stable hdemands.right.left
              (fun _ _ _ => trivial) ?_
            intro v v' _ _ h heffect
            cases heffect
            exact h
          · intro _ v hv
            apply wp.pure
            exact {
              answers := by cases request <;> exact hdemands.left
              accepted := fun h => by cases h
              refused := fun _ => hv
              receiver := fun _ h => by cases h
              closed := fun h => by cases h
              full := fun h => by cases h }
      | _ => cases hcancel
  | _ => cases hcancel

theorem told_stable (request : Request M W) (answer : Answer M W) :
    (clientDiscipline V M W A waits).Stable (Told request answer) := by
  apply stable_of_passes
  intro v v' _ hpasses h
  exact {
    answers := h.answers
    accepted := by
      rw [hpasses.opened, hpasses.enqueued]
      exact h.accepted
    refused := fun hrefused => (h.refused hrefused).passes hpasses
    receiver := by
      rw [hpasses.enqueued]
      exact h.receiver
    closed := fun hclosed => hpasses.world.closing (h.closed hclosed)
    full := fun hfull => (h.full hfull).passes hpasses }

end Loac

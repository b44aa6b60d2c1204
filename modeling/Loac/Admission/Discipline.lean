import Loac.Address
import Loac.Delivery.Cutoff

/-!
# What a client relies on

A transport closes only after the gate did, and the gate never opens again.  A
client that is registered for a change of the mode is told about every change
that it has not seen: the notification reached it, or it is under way.
-/

namespace Loac

open Interleave Interleave.Prog

variable {V M W T α : Type} {A : ActorConfig} {waits : Bool} {v v' : View V}
  {w w' : World V}

/-!
## The world around a client
-/

structure World.Evolves (w w' : World V) : Prop where
  moves : w.control.Moves w'.control
  admitted : forall e, e ∈ w.mail.admitted -> e ∈ w'.mail.admitted
  gated : w'.mail.closed = true -> Closing w'

theorem Control.Moves.changes {control control' : Control}
    (h : control.Moves control') : control.changes <= control'.changes := by
  unfold Control.changes
  cases h with
  | stays _ hcommitted => exact Nat.le_of_eq (congrArg _ hcommitted.symm)
  | advances _ hcommitted =>
      rw [hcommitted, List.length_cons]
      exact Nat.le_succ _

theorem Control.Moves.changes_lt {control control' : Control}
    (h : control.Moves control') (hrunning : control.mode = .running)
    (hleft : control'.mode ≠ .running) :
    control.changes < control'.changes := by
  unfold Control.changes
  cases h with
  | stays hmode _ => exact absurd (hmode.trans hrunning) hleft
  | advances _ hcommitted =>
      rw [hcommitted, List.length_cons]
      exact Nat.lt_succ_self _

theorem EnvAct.admitted_exec {e : EnvAct} (h : e.exec A w = some w') :
    forall envelope, envelope ∈ w.mail.admitted ->
      envelope ∈ w'.mail.admitted := by
  intro envelope hmem
  rcases EnvAct.mail_exec h with ⟨_, _, _, _, _, _, _, hmail, _, hqueue⟩
  rw [hmail]
  rcases hqueue with ⟨_, hsame⟩ | ⟨_, _, _, happend⟩
  · rw [hsame]
    exact hmem
  · rw [happend]
    exact List.mem_append_left _ hmem

/-!
## The invariant
-/

structure ViewInv (v : View V) : Prop where
  gated : v.world.mail.closed = true -> Closing v.world
  opened : v.world.control.mode = .running -> v.station.opened = true
  seen : forall n, v.station.seen = some n -> n <= v.world.control.changes
  heard : v.station.registered = true -> exists n, v.station.seen = some n ∧
    v.world.control.changes <= n + v.notices
  enqueued : forall e, v.station.enqueued = some e ->
    e ∈ v.world.mail.admitted

/-- The client has seen every change but those that left `running`. -/
def Watching (v : View V) : Prop :=
  exists n, v.station.seen = some n ∧
    (Closing v.world -> n < v.world.control.changes)

/-- A client that stops here will be woken. -/
def Attentive (v : View V) : Prop :=
  v.station.task = true ∨ (v.station.registered = true ∧ Watching v)

def Unsent (v : View V) : Prop :=
  v.station.enqueued = none

def ClientDemands (waits : Bool) : {α : Type} -> ClientOp α -> View V -> Prop
  | _, .suspend, v => waits = true ∧ Unsent v ∧ Attentive v
  | _, .beginFailure, _ => False
  | _, .admitKind _, v => Unsent v
  | _, _, _ => True

def ViewTolerates : ViewAct V -> View V -> Prop
  | .world w, v => v.world.Evolves w
  | _, _ => True

def clientDiscipline (V M W : Type) (A : ActorConfig) (waits : Bool) :
    Discipline (clientMachine V M W A) where
  inv := ViewInv
  admits := fun _ _ _ => True
  tolerates := ViewTolerates
  demands := ClientDemands waits

/-- What everybody else, and the notifications, do to a client. -/
structure View.Passes (v v' : View V) : Prop where
  world : v.world.control.Moves v'.world.control
  seen : v'.station.seen = v.station.seen
  observed : v'.station.observed = v.station.observed
  enqueued : v'.station.enqueued = v.station.enqueued
  opened : v'.station.opened = v.station.opened
  attentive : v.station.task = true ∨ v.station.registered = true ->
    v'.station.task = true ∨ v'.station.registered = true

theorem ViewAct.passes {e : ViewAct V} (htolerates : ViewTolerates e v)
    (h : e.exec v = some v') : v.Passes v' := by
  cases e with
  | world w =>
      cases h
      exact ⟨htolerates.moves, rfl, rfl, rfl, rfl, fun h => h⟩
  | notice =>
      rw [ViewAct.exec] at h
      split at h
      · cases h
      · cases h
        refine ⟨.stays rfl rfl, rfl, rfl, rfl, rfl, ?_⟩
        intro h
        left
        show (v.station.task || v.station.registered) = true
        rcases h with h | h
        · rw [h]
          rfl
        · rw [h, Bool.or_true]
  | wake =>
      cases h
      exact ⟨.stays rfl rfl, rfl, rfl, rfl, rfl, fun _ => Or.inl rfl⟩

theorem ViewInv.evolve (h : ViewInv v) (hevolves : v.world.Evolves w) :
    ViewInv (v.evolve w) where
  gated := hevolves.gated
  opened := by
    intro hrunning
    apply h.opened
    by_contra hclosing
    exact hevolves.moves.closing hclosing hrunning
  seen := by
    intro n hseen
    exact Nat.le_trans (h.seen n hseen) hevolves.moves.changes
  heard := by
    intro hregistered
    rcases h.heard hregistered with ⟨n, hseen, hnotices⟩
    refine ⟨n, hseen, ?_⟩
    have hchanges := hevolves.moves.changes
    show w.control.changes <=
      n + (v.notices + (w.control.changes - v.world.control.changes))
    omega
  enqueued := by
    intro e henqueued
    exact hevolves.admitted e (h.enqueued e henqueued)

theorem ViewInv.env_step {e : ViewAct V} (h : ViewInv v)
    (htolerates : ViewTolerates e v) (henv : e.exec v = some v') :
    ViewInv v' := by
  cases e with
  | world w =>
      cases henv
      exact h.evolve htolerates
  | notice =>
      rw [ViewAct.exec] at henv
      split at henv
      · cases henv
      · cases henv
        exact {
          gated := h.gated
          opened := h.opened
          seen := h.seen
          heard := fun hregistered => by cases hregistered
          enqueued := h.enqueued }
  | wake =>
      cases henv
      exact {
        gated := h.gated
        opened := h.opened
        seen := h.seen
        heard := h.heard
        enqueued := h.enqueued }

/-!
## Operations
-/

/-- An envelope that passes an open gate gets the next identity. -/
theorem EnvAct.admits_next {kind : Kind}
    (hrunning : w.control.mode = .running)
    (h : (EnvAct.admitEnvelope kind).exec A w = some w') :
    w'.mail.admitted =
      w.mail.admitted ++ [{ id := w.mail.nextId, kind := kind }] := by
  rcases Option.map_eq_some_iff.mp h with ⟨mail, haccept, hw'⟩
  subst hw'
  unfold Mail.admitEnvelope at haccept
  rw [hrunning] at haccept
  split at haccept
  · cases haccept
  · rw [if_pos rfl] at haccept
    split at haccept
    · cases haccept
    · cases haccept
      rfl

theorem EnvAct.evolves {e : EnvAct} (hgated : w.mail.closed = true -> Closing w)
    (h : e.exec A w = some w') : w.Evolves w' where
  moves := EnvAct.control_moves h
  admitted := EnvAct.admitted_exec h
  gated := by
    rcases EnvAct.mail_exec h with ⟨_, _, _, _, _, _, _, hmail, _⟩
    rw [hmail]
    intro hclosed
    exact (EnvAct.control_moves h).closing (hgated hclosed)

theorem View.ask_cases {input : ClientInput} {granted b : α}
    {denied closed : View V × α}
    (h : v.askReservation A input granted denied closed = some (v', b)) :
    (v.world.mail.closed = true ∧ closed = (v', b)) ∨ denied = (v', b) ∨
      exists w, EnvAct.reserve.exec A v.world = some w ∧ granted = b ∧
        v' = (v.evolve w).setStation { v.station with permit := true } := by
  unfold View.askReservation at h
  split at h
  · cases h
  · split at h
    · rename_i hclosed
      exact Or.inl ⟨hclosed, Option.some.inj h⟩
    · split at h
      · rcases Option.map_eq_some_iff.mp h with ⟨middle, hact, hresult⟩
        rcases Option.map_eq_some_iff.mp hact with ⟨w, hexec, hmiddle⟩
        subst hmiddle
        cases hresult
        exact Or.inr (Or.inr ⟨w, hexec, rfl, rfl⟩)
      · split at h
        · cases h
        · exact Or.inr (Or.inl (Option.some.inj h))
      · cases h

def ClientOp.Effect (A : ActorConfig) : {α : Type} -> ClientOp α ->
    View V -> View V -> α -> Prop
  | _, .tryReserve, v, v', b =>
      (exists w, EnvAct.reserve.exec A v.world = some w ∧ b = .ok () ∧
        v' = (v.evolve w).setStation { v.station with permit := true }) ∨
      (b = .error .full ∧
        v' = v.setStation (v.station.observe (.reservation .full))) ∨
      (v.world.mail.closed = true ∧ b = .error .closed ∧
        v' = v.setStation (v.station.observe (.reservation .closed)))
  | _, .isRunning, v, v', b =>
      b = decide (v.world.control.mode = .running) ∧
        v' = v.setStation (v.station.observe (.running b))
  | _, .subscribeMode, v, v', _ =>
      v' = v.setStation { v.station with seen := some v.world.control.changes }
  | _, .pollReserveOwned, v, v', b =>
      (exists w, EnvAct.reserve.exec A v.world = some w ∧ b = .reserved ∧
        v' = (v.evolve w).setStation { v.station with permit := true }) ∨
      (b = .pending ∧ v' = v) ∨
      (v.world.mail.closed = true ∧ b = .closed ∧ v' = v)
  | _, .pollChanged, v, v', b =>
      (v.station.seen = some v.world.control.changes ∧ b = false ∧
        v' = v.setStation { v.station with registered := true }) ∨
      (v.station.seen ≠ some v.world.control.changes ∧ b = true ∧
        v' = v.setStation { v.station with
          seen := some v.world.control.changes
          registered := false })
  | _, .suspend, v, v', _ =>
      v.station.task = true ∧ v' = v.setStation { v.station with task := false }
  | _, .dropSelect, v, v', _ =>
      v' = v.setStation { v.station with registered := false }
  | _, .admitKind kind, v, v', b =>
      (v.world.control.mode = .running ∧ v.world.mail.closed = true ∧
        exists w, EnvAct.release.exec A v.world = some w ∧
          b = .backendClosed ∧
          v' = (v.evolve w).setStation { v.station with permit := false }) ∨
      (v.world.control.mode = .running ∧
        exists w, (EnvAct.admitEnvelope kind).exec A v.world = some w ∧
          b = .accepted v.world.mail.nextId ∧
          v' = (v.evolve w).setStation { v.station with
            permit := false
            enqueued := some { id := v.world.mail.nextId, kind := kind } }) ∨
      (v.world.control.mode ≠ .running ∧
        exists w, (EnvAct.admitEnvelope kind).exec A v.world = some w ∧
          b = .rejected ∧ v' = v.evolve w)
  | _, .release, v, v', _ =>
      exists w, EnvAct.release.exec A v.world = some w ∧
        v' = (v.evolve w).setStation { v.station with permit := false }
  | _, .beginFailure, v, v', _ =>
      exists w, EnvAct.fail.exec A v.world = some w ∧ v' = v.evolve w

theorem ClientOp.effect {op : ClientOp α} {input : ClientInput} {b : α}
    (h : op.exec A input v = some (v', b)) : op.Effect A v v' b := by
  have hmap {β γ : Type} {o : Option β} {f : β -> View V} {b b' : γ}
      (h : o.map (fun w => (f w, b)) = some (v', b')) :
      exists w, o = some w ∧ b' = b ∧ v' = f w := by
    rcases Option.map_eq_some_iff.mp h with ⟨w, hw, hresult⟩
    cases hresult
    exact ⟨w, hw, rfl, rfl⟩
  cases op with
  | tryReserve =>
      rcases View.ask_cases h with
        ⟨hclosed, hresult⟩ | hresult | ⟨w, hexec, hb, hv'⟩
      · cases hresult
        exact Or.inr (Or.inr ⟨hclosed, rfl, rfl⟩)
      · cases hresult
        exact Or.inr (Or.inl ⟨rfl, rfl⟩)
      · exact Or.inl ⟨w, hexec, hb.symm, hv'⟩
  | isRunning =>
      cases h
      exact ⟨rfl, rfl⟩
  | subscribeMode =>
      cases h
      rfl
  | pollReserveOwned =>
      rcases View.ask_cases h with
        ⟨hclosed, hresult⟩ | hresult | ⟨w, hexec, hb, hv'⟩
      · cases hresult
        exact Or.inr (Or.inr ⟨hclosed, rfl, rfl⟩)
      · cases hresult
        exact Or.inr (Or.inl ⟨rfl, rfl⟩)
      · exact Or.inl ⟨w, hexec, hb.symm, hv'⟩
  | pollChanged =>
      rw [ClientOp.exec] at h
      split at h
      · rename_i hseen
        cases h
        exact Or.inl ⟨hseen, rfl, rfl⟩
      · rename_i hseen
        cases h
        exact Or.inr ⟨hseen, rfl, rfl⟩
  | suspend =>
      rw [ClientOp.exec] at h
      split at h
      · rename_i htask
        cases h
        exact ⟨htask, rfl⟩
      · cases h
  | dropSelect =>
      cases h
      rfl
  | admitKind kind =>
      rw [ClientOp.exec] at h
      split at h
      · rename_i hrunning
        split at h
        · rename_i hclosed
          unfold View.act at h
          rw [Option.map_map] at h
          exact Or.inl ⟨hrunning, hclosed, hmap h⟩
        · unfold View.act at h
          simp only [Option.map_map] at h
          exact Or.inr (Or.inl ⟨hrunning, hmap h⟩)
      · rename_i hclosing
        unfold View.act at h
        rw [Option.map_map] at h
        exact Or.inr (Or.inr ⟨hclosing, hmap h⟩)
  | release =>
      rw [ClientOp.exec, View.act, Option.map_map] at h
      rcases hmap h with ⟨w, hexec, _, hv'⟩
      exact ⟨w, hexec, hv'⟩
  | beginFailure =>
      cases h
      exact ⟨_, rfl, rfl⟩

inductive View.Acts (A : ActorConfig) (v v' : View V) : Prop where
  | nothing : v'.world = v.world -> v'.notices = v.notices -> Acts A v v'
  | acts (e : EnvAct) : e.exec A v.world = some v'.world ->
      v'.notices = (v.evolve v'.world).notices -> Acts A v v'

theorem ClientOp.Effect.acts {op : ClientOp α} {b : α}
    (h : op.Effect A v v' b) : v.Acts A v' := by
  cases op with
  | tryReserve =>
      rcases h with ⟨w, hexec, _, hv'⟩ | ⟨_, hv'⟩ | ⟨_, _, hv'⟩ <;> subst hv'
      · exact .acts _ hexec rfl
      · exact .nothing rfl rfl
      · exact .nothing rfl rfl
  | pollReserveOwned =>
      rcases h with ⟨w, hexec, _, hv'⟩ | ⟨_, hv'⟩ | ⟨_, _, hv'⟩ <;> subst hv'
      · exact .acts _ hexec rfl
      · exact .nothing rfl rfl
      · exact .nothing rfl rfl
  | pollChanged =>
      rcases h with ⟨_, _, hv'⟩ | ⟨_, _, hv'⟩ <;> subst hv' <;> exact .nothing rfl rfl
  | admitKind kind =>
      rcases h with ⟨_, _, w, hexec, _, hv'⟩ | ⟨_, w, hexec, _, hv'⟩ |
        ⟨_, w, hexec, _, hv'⟩ <;> subst hv' <;> exact .acts _ hexec rfl
  | release =>
      rcases h with ⟨w, hexec, hv'⟩
      subst hv'
      exact .acts _ hexec rfl
  | beginFailure =>
      rcases h with ⟨w, hexec, hv'⟩
      subst hv'
      exact .acts _ hexec rfl
  | isRunning =>
      rcases h with ⟨_, hv'⟩
      subst hv'
      exact .nothing rfl rfl
  | suspend =>
      rcases h with ⟨_, hv'⟩
      subst hv'
      exact .nothing rfl rfl
  | subscribeMode =>
      cases h
      exact .nothing rfl rfl
  | dropSelect =>
      cases h
      exact .nothing rfl rfl

theorem ViewInv.setStation {station : Station} (h : ViewInv v)
    (hseen : station.seen = v.station.seen)
    (hregistered : station.registered = true -> v.station.registered = true)
    (henqueued : station.enqueued = v.station.enqueued)
    (hopened : station.opened = v.station.opened) :
    ViewInv (v.setStation station) where
  gated := h.gated
  opened := by
    intro hrunning
    exact hopened.trans (h.opened hrunning)
  seen := by
    intro n hsome
    exact h.seen n (hseen.symm.trans hsome)
  heard := by
    intro hsome
    rcases h.heard (hregistered hsome) with ⟨n, hn, hnotices⟩
    exact ⟨n, hseen.trans hn, hnotices⟩
  enqueued := by
    intro e hsome
    exact h.enqueued e (henqueued.symm.trans hsome)

theorem ViewInv.actor_step {op : ClientOp α} {b : α} (h : ViewInv v)
    (heffect : op.Effect A v v' b) : ViewInv v' := by
  have hevolve {e : EnvAct} {w : World V}
      (hexec : e.exec A v.world = some w) : ViewInv (v.evolve w) :=
    h.evolve (EnvAct.evolves h.gated hexec)
  cases op with
  | tryReserve =>
      rcases heffect with ⟨w, hexec, _, hv'⟩ | ⟨_, hv'⟩ | ⟨_, _, hv'⟩ <;>
        subst hv'
      · exact (hevolve hexec).setStation rfl (fun h => h) rfl rfl
      · exact h.setStation rfl (fun h => h) rfl rfl
      · exact h.setStation rfl (fun h => h) rfl rfl
  | isRunning =>
      rcases heffect with ⟨_, hv'⟩
      subst hv'
      exact h.setStation rfl (fun h => h) rfl rfl
  | subscribeMode =>
      cases heffect
      exact {
        gated := h.gated
        opened := h.opened
        seen := by
          intro n hseen
          cases hseen
          exact Nat.le_refl _
        heard := fun _ => ⟨_, rfl, Nat.le_add_right _ _⟩
        enqueued := h.enqueued }
  | pollReserveOwned =>
      rcases heffect with ⟨w, hexec, _, hv'⟩ | ⟨_, hv'⟩ | ⟨_, _, hv'⟩ <;>
        subst hv'
      · exact (hevolve hexec).setStation rfl (fun h => h) rfl rfl
      · exact h
      · exact h
  | pollChanged =>
      rcases heffect with ⟨hseen, _, hv'⟩ | ⟨_, _, hv'⟩ <;> subst hv'
      · exact {
          gated := h.gated
          opened := h.opened
          seen := h.seen
          heard := fun _ => ⟨_, hseen, Nat.le_add_right _ _⟩
          enqueued := h.enqueued }
      · exact {
          gated := h.gated
          opened := h.opened
          seen := by
            intro n hseen
            cases hseen
            exact Nat.le_refl _
          heard := fun hregistered => by cases hregistered
          enqueued := h.enqueued }
  | suspend =>
      rcases heffect with ⟨_, hv'⟩
      subst hv'
      exact h.setStation rfl (fun h => h) rfl rfl
  | dropSelect =>
      cases heffect
      exact h.setStation rfl (fun hregistered => by cases hregistered) rfl rfl
  | admitKind kind =>
      rcases heffect with ⟨_, _, w, hexec, _, hv'⟩ |
        ⟨hrunning, w, hexec, _, hv'⟩ | ⟨_, w, hexec, _, hv'⟩ <;> subst hv'
      · exact (hevolve hexec).setStation rfl (fun h => h) rfl rfl
      · have hevolved := hevolve hexec
        exact {
          gated := hevolved.gated
          opened := hevolved.opened
          seen := hevolved.seen
          heard := hevolved.heard
          enqueued := by
            intro e hsome
            cases hsome
            show _ ∈ w.mail.admitted
            rw [EnvAct.admits_next hrunning hexec]
            exact List.mem_append_right _ (List.mem_singleton_self _) }
      · exact hevolve hexec
  | release =>
      rcases heffect with ⟨w, hexec, hv'⟩
      subst hv'
      exact (hevolve hexec).setStation rfl (fun h => h) rfl rfl
  | beginFailure =>
      rcases heffect with ⟨w, hexec, hv'⟩
      subst hv'
      exact hevolve hexec

theorem clientDiscipline_lawful : (clientDiscipline V M W A waits).Lawful where
  actor := by
    intro β op input v v' b hinv _ _ hexec
    have hexec' : op.exec A input v = some (v', b) := hexec
    exact ViewInv.actor_step hinv (ClientOp.effect hexec')
  env := by
    intro e v v' hinv htolerates henv
    exact ViewInv.env_step hinv htolerates henv

theorem wp_client {op : ClientOp α} {P X : View V -> Prop}
    {Q : α -> View V -> Prop} (hstable : (clientDiscipline V M W A waits).Stable P)
    (h : P v) (hdemands : forall v, ViewInv v -> P v ->
      ClientDemands waits op v)
    (heffect : forall v v' b, ViewInv v -> P v -> op.Effect A v v' b ->
      Q b v') : wp (clientDiscipline V M W A waits) (perform op) Q X v := by
  apply wp.op hstable h
  intro v hinv h
  refine ⟨hdemands v hinv h, ?_⟩
  intro input v' b _ hexec _
  have hexec' : op.exec A input v = some (v', b) := hexec
  exact heffect v v' b hinv h (ClientOp.effect hexec')

end Loac

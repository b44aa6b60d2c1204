import Loac.Admission.Commits
import Loac.Hierarchy.Confirmation

/-!
# Admission loses nothing

Seen from one operation, the actor and all the other clients are its
environment.  So what holds of one operation holds in a market of them.  The
envelopes that were admitted are, all together, those that the operations
enqueued.
-/

namespace Loac

open Interleave Interleave.Prog

variable {V M W α : Type} {A : ActorConfig} {market market' : Market V M W}

/-!
## Lists of operations
-/

theorem filterMap_set_same {α β : Type*} {l : List α} {i : Nat} {a b : α}
    {f : α -> Option β}
    (hi : l[i]? = some a) (hf : f b = f a) :
    (l.set i b).filterMap f = l.filterMap f := by
  induction l generalizing i with
  | nil => rfl
  | cons head rest ih =>
      cases i with
      | zero =>
          cases hi
          show (b :: rest).filterMap f = _
          rw [List.filterMap_cons, List.filterMap_cons, hf]
      | succ i =>
          show (head :: rest.set i b).filterMap f = _
          rw [List.filterMap_cons, List.filterMap_cons, ih hi]

theorem filterMap_set_new {α β : Type*} {l : List α} {i : Nat} {a b : α}
    {f : α -> Option β} {x : β} (hi : l[i]? = some a) (ha : f a = none) (hb : f b = some x) :
    ((l.set i b).filterMap f).Perm (x :: l.filterMap f) := by
  induction l generalizing i with
  | nil => cases hi
  | cons head rest ih =>
      cases i with
      | zero =>
          cases hi
          show ((b :: rest).filterMap f).Perm _
          rw [List.filterMap_cons, List.filterMap_cons, ha, hb]
      | succ i =>
          show ((head :: rest.set i b).filterMap f).Perm _
          rw [List.filterMap_cons, List.filterMap_cons]
          cases f head with
          | none => exact ih hi
          | some y => exact ((ih hi).cons y).trans (List.Perm.swap x y _)

/-!
## The actor
-/

theorem EnvAct.admitted_same {e : EnvAct} {w w' : World V}
    (hother : forall kind, e ≠ .admitEnvelope kind)
    (h : e.exec A w = some w') : w'.mail.admitted = w.mail.admitted := by
  cases e with
  | admitEnvelope kind => exact absurd rfl (hother kind)
  | reserve =>
      rw [EnvAct.exec] at h
      split at h
      · rcases Option.map_eq_some_iff.mp h with ⟨mail, hreserve, hw'⟩
        subst hw'
        unfold Mail.reserve at hreserve
        split at hreserve
        · cases hreserve
          rfl
        · cases hreserve
      · cases h
  | release =>
      rcases Option.map_eq_some_iff.mp h with ⟨mail, hrelease, hw'⟩
      subst hw'
      unfold Mail.release at hrelease
      split at hrelease
      · cases hrelease
      · cases hrelease
        rfl
  | refuse =>
      rw [EnvAct.exec] at h
      split at h
      · cases h
        rfl
      · cases h
  | abandon id =>
      cases h
      rfl
  | _ =>
      have hmail : w'.mail = w.mail := by
        grind [EnvAct.exec, World.transact, World.wakeIf,
          Option.map_eq_some_iff]
      rw [hmail]

theorem actor_admitted {c c' : ActorState V} {event : Event (Input V) EnvAct}
    (hclient : Event.isClient event = false)
    (hstep : (machine V A).step c event = some c') :
    c'.state.mail.admitted = c.state.mail.admitted := by
  cases event with
  | env e =>
      rcases Option.map_eq_some_iff.mp hstep with ⟨w, henv, hc'⟩
      subst hc'
      apply EnvAct.admitted_same _ henv
      intro kind heq
      subst heq
      cases hclient
  | actor input =>
      cases Machine.took_of_step hstep with
      | turned hsame => rw [hsame]
      | cancelled _ _ _ _ hsame => rw [hsame]
      | performed op next b _ hexec _ => exact Op.admitted_exec hexec

theorem gated_reachable {c : ActorState V} (h : Reachable A c) :
    c.state.mail.closed = true -> Closing c.state :=
  MailInv.closed (delivery_safe h).inv

theorem actor_evolves {c c' : ActorState V} {event : Event (Input V) EnvAct}
    (h : Reachable A c) (hclient : Event.isClient event = false)
    (hstep : (machine V A).step c event = some c') :
    c.state.Evolves c'.state where
  moves := step_moves hstep
  admitted := by
    intro e hmem
    rw [actor_admitted hclient hstep]
    exact hmem
  gated := gated_reachable (.step event h trivial hstep)

/-!
## One operation
-/

variable {op : ClientOp α} {v v' : View V} {b : α}

theorem ClientOp.Effect.enqueues (h : op.Effect A v v' b) :
    (v'.station.enqueued = v.station.enqueued ∧
      v'.world.mail.admitted = v.world.mail.admitted) ∨
    (Accepts op b ∧ exists e, v'.station.enqueued = some e ∧
      v'.world.mail.admitted = v.world.mail.admitted ++ [e]) := by
  cases op with
  | tryReserve =>
      rcases h with ⟨w, hexec, _, hv'⟩ | ⟨_, hv'⟩ | ⟨_, _, hv'⟩ <;> subst hv'
      · exact Or.inl ⟨rfl, EnvAct.admitted_same (fun _ => by simp) hexec⟩
      · exact Or.inl ⟨rfl, rfl⟩
      · exact Or.inl ⟨rfl, rfl⟩
  | isRunning =>
      rcases h with ⟨_, hv'⟩
      subst hv'
      exact Or.inl ⟨rfl, rfl⟩
  | subscribeMode =>
      cases h
      exact Or.inl ⟨rfl, rfl⟩
  | pollReserveOwned =>
      rcases h with ⟨w, hexec, _, hv'⟩ | ⟨_, hv'⟩ | ⟨_, _, hv'⟩ <;> subst hv'
      · exact Or.inl ⟨rfl, EnvAct.admitted_same (fun _ => by simp) hexec⟩
      · exact Or.inl ⟨rfl, rfl⟩
      · exact Or.inl ⟨rfl, rfl⟩
  | pollChanged =>
      rcases h with ⟨_, _, hv'⟩ | ⟨_, _, hv'⟩ <;> subst hv' <;>
        exact Or.inl ⟨rfl, rfl⟩
  | suspend =>
      rcases h with ⟨_, hv'⟩
      subst hv'
      exact Or.inl ⟨rfl, rfl⟩
  | dropSelect =>
      cases h
      exact Or.inl ⟨rfl, rfl⟩
  | admitKind kind =>
      rcases h with ⟨_, _, w, hexec, _, hv'⟩ |
        ⟨hrunning, w, hexec, hb, hv'⟩ | ⟨hclosing, w, hexec, _, hv'⟩
      · subst hv'
        exact Or.inl ⟨rfl, EnvAct.admitted_same (fun _ => by simp) hexec⟩
      · subst hb hv'
        exact Or.inr ⟨trivial, _, rfl, EnvAct.admits_next hrunning hexec⟩
      · subst hv'
        rcases EnvAct.mail_exec hexec with ⟨_, _, _, _, _, _, _, hmail, _, hqueue⟩
        rcases hqueue with ⟨_, hsame⟩ | ⟨hrunning, _⟩
        · refine Or.inl ⟨rfl, ?_⟩
          show w.mail.admitted = _
          rw [hmail]
          exact hsame
        · exact absurd hrunning hclosing
  | release =>
      rcases h with ⟨w, hexec, hv'⟩
      subst hv'
      exact Or.inl ⟨rfl, EnvAct.admitted_same (fun _ => by simp) hexec⟩
  | beginFailure =>
      rcases h with ⟨w, hexec, hv'⟩
      subst hv'
      exact Or.inl ⟨rfl, EnvAct.admitted_same (fun _ => by simp) hexec⟩

theorem ClientOp.Effect.opened (h : op.Effect A v v' b) :
    v'.station.opened = v.station.opened := by
  cases op with
  | tryReserve =>
      rcases h with ⟨w, _, _, hv'⟩ | ⟨_, hv'⟩ | ⟨_, _, hv'⟩ <;> subst hv' <;> rfl
  | pollReserveOwned =>
      rcases h with ⟨w, _, _, hv'⟩ | ⟨_, hv'⟩ | ⟨_, _, hv'⟩ <;> subst hv' <;> rfl
  | pollChanged =>
      rcases h with ⟨_, _, hv'⟩ | ⟨_, _, hv'⟩ <;> subst hv' <;> rfl
  | admitKind kind =>
      rcases h with ⟨_, _, w, _, _, hv'⟩ | ⟨_, w, _, _, hv'⟩ |
        ⟨_, w, _, _, hv'⟩ <;> subst hv' <;> rfl
  | release =>
      rcases h with ⟨w, _, hv'⟩
      subst hv'
      rfl
  | beginFailure =>
      rcases h with ⟨w, _, hv'⟩
      subst hv'
      rfl
  | isRunning =>
      rcases h with ⟨_, hv'⟩
      subst hv'
      rfl
  | suspend =>
      rcases h with ⟨_, hv'⟩
      subst hv'
      rfl
  | subscribeMode =>
      cases h
      rfl
  | dropSelect =>
      cases h
      rfl

/-- What one step of an operation does outside of its program. -/
structure Proceeds (A : ActorConfig) (v v' : View V) : Prop where
  acts : v.Acts A v'
  opened : v'.station.opened = v.station.opened

theorem View.Acts.refl (v : View V) : v.Acts A v :=
  .nothing rfl rfl

theorem View.Acts.view (h : v.Acts A v') :
    v'.notices = (v.evolve v'.world).notices := by
  cases h with
  | nothing hworld hnotices =>
      rw [hnotices, hworld]
      show v.notices = v.notices + (v.world.control.changes - _)
      rw [Nat.sub_self, Nat.add_zero]
  | acts e _ hnotices => exact hnotices

/-!
## The invariant of a market
-/

structure Market.Inv (A : ActorConfig) (market : Market V M W) : Prop where
  actor : Reachable A market.actor
  safe : forall errand, errand ∈ market.errands ->
    Safe (clientDiscipline V M W A errand.request.waits) (Told errand.request)
      (fun _ => False) (market.config errand)
  commits : forall errand, errand ∈ market.errands ->
    errand.prog.Commits Accepts (fun answer => answer.accepted = true)
  reported : forall errand, errand ∈ market.errands ->
    errand.enqueued.isSome = true ->
      exists answer, errand.prog = .pure answer ∧ answer.accepted = true
  ledger : (market.errands.filterMap Errand.enqueued).Perm
    market.actor.state.mail.admitted

namespace Market.Inv

theorem gated (h : market.Inv A) :
    market.actor.state.mail.closed = true -> Closing market.actor.state :=
  gated_reachable h.actor

/-- What happens around an operation between two of its steps keeps it safe. -/
theorem safe_around (h : market.Inv A) {errand : Errand M W}
    (hmem : errand ∈ market.errands) {e : ViewAct V} {v : View V}
    (htolerates : ViewTolerates e (market.view errand.station))
    (hexec : e.exec (market.view errand.station) = some v) :
    Safe (clientDiscipline V M W A errand.request.waits) (Told errand.request)
      (fun _ => False) ⟨v, errand.prog⟩ := by
  apply Safe.env_step (c := market.config errand) clientDiscipline_lawful
    htolerates _ (h.safe errand hmem)
  show (e.exec (market.view errand.station)).map _ = _
  rw [hexec]
  rfl

theorem actor_step (h : market.Inv A) {event : Event (Input V) EnvAct}
    (hstep : market.step A (.actor event) = some market') : market'.Inv A := by
  rw [Market.step] at hstep
  split at hstep
  · cases hstep
  · rename_i hclient
    have hclient : Event.isClient event = false := by simpa using hclient
    rcases Option.map_eq_some_iff.mp hstep with ⟨c, hactor, hmarket'⟩
    subst hmarket'
    exact {
      actor := .step event h.actor trivial hactor
      safe := fun errand hmem =>
        h.safe_around (e := .world c.state) hmem
          (actor_evolves h.actor hclient hactor) rfl
      commits := h.commits
      reported := h.reported
      ledger := by
        show List.Perm _ c.state.mail.admitted
        rw [actor_admitted hclient hactor]
        exact h.ledger }

theorem start_step (h : market.Inv A) {request : Request M W}
    (hstep : market.step A (.start request) = some market') :
    market'.Inv A := by
  rw [Market.step] at hstep
  split at hstep
  · cases hstep
    have hcases {P : Errand M W -> Prop} {new : Errand M W}
        (hold : forall errand, errand ∈ market.errands -> P errand)
        (hnew : P new) : forall errand,
          errand ∈ market.errands ++ [new] -> P errand := by
      intro errand hmem
      rcases List.mem_append.mp hmem with hmem | hmem
      · exact hold errand hmem
      · rw [List.mem_singleton.mp hmem]
        exact hnew
    constructor
    · exact h.actor
    · apply hcases h.safe
      refine ⟨?_, _, .refl, run_tells request rfl⟩
      exact {
        gated := h.gated
        opened := decide_eq_true
        seen := fun _ hseen => by cases hseen
        heard := fun hregistered => by cases hregistered
        enqueued := fun _ henqueued => by cases henqueued }
    · exact hcases h.commits (run_commits request)
    · exact hcases h.reported (fun henqueued => by cases henqueued)
    · rw [List.filterMap_append]
      show List.Perm (_ ++ []) _
      rw [List.append_nil]
      exact h.ledger
  · cases hstep

theorem notice_step (h : market.Inv A)
    (hstep : market.step A .notice = some market') : market'.Inv A := by
  rw [Market.step] at hstep
  split at hstep
  · cases hstep
  · rename_i notices hnotices
    cases hstep
    have hcases {P : Errand M W -> Prop}
        (hall : forall errand, errand ∈ market.errands ->
          P (errand.setStation errand.station.hear)) : forall errand,
        errand ∈ market.errands.map (fun errand =>
          errand.setStation errand.station.hear) -> P errand := by
      intro errand hmem
      rcases List.mem_map.mp hmem with ⟨before, hbefore, heq⟩
      subst heq
      exact hall before hbefore
    constructor
    · exact h.actor
    · apply hcases
      intro errand hmem
      apply h.safe_around (e := .notice) hmem trivial
      unfold ViewAct.exec Market.view
      dsimp only
      rw [hnotices]
      rfl
    · exact hcases h.commits
    · exact hcases h.reported
    · show List.Perm ((market.errands.map _).filterMap _) _
      rw [List.filterMap_map]
      exact h.ledger
 
/-- One operation goes on, and nobody else does. -/
theorem set_cases {index : Nat} {next : Errand M W} {P : Errand M W -> Prop}
    (hold : forall errand, errand ∈ market.errands -> P errand)
    (hnew : P next) : forall errand,
      errand ∈ market.errands.set index next -> P errand := by
  intro errand hmem
  rcases List.mem_or_eq_of_mem_set hmem with hmem | heq
  · exact hold errand hmem
  · rw [heq]
    exact hnew

theorem wake_step (h : market.Inv A) {index : Nat}
    (hstep : market.step A (.wake index) = some market') : market'.Inv A := by
  rw [Market.step] at hstep
  split at hstep
  · cases hstep
  · rename_i errand hindex
    cases hstep
    have hmem : errand ∈ market.errands := List.mem_of_getElem? hindex
    constructor
    · exact h.actor
    · exact set_cases h.safe (h.safe_around (e := .wake) hmem trivial rfl)
    · exact set_cases h.commits (h.commits errand hmem)
    · exact set_cases h.reported (h.reported errand hmem)
    · show List.Perm ((market.errands.set index _).filterMap _) _
      rw [filterMap_set_same (b := errand.setStation errand.station.wake)
        hindex rfl]
      exact h.ledger

theorem actor_acts (h : market.Inv A) {errand : Errand M W} {v : View V}
    (hacts : (market.view errand.station).Acts A v) :
    Reachable A { market.actor with state := v.world } ∧
      market.actor.state.Evolves v.world := by
  cases hacts with
  | nothing hworld _ =>
      rw [hworld]
      exact ⟨h.actor, .stays rfl rfl, fun _ hmem => hmem, h.gated⟩
  | acts e hexec _ =>
      have hexec : e.exec A market.actor.state = some v.world := hexec
      have hstep : (machine V A).step market.actor (.env e) =
          some { market.actor with state := v.world } := by
        show (e.exec A market.actor.state).map _ = _
        rw [hexec]
        rfl
      exact ⟨.step (.env e) h.actor trivial hstep,
        EnvAct.evolves h.gated hexec⟩

theorem errand_enqueues (h : market.Inv A) {errand : Errand M W}
    (hmem : errand ∈ market.errands) {input : ClientInput}
    {c : Config ClientOp (View V) (Answer M W)}
    (hclient : (clientMachine V M W A).stepActor input (market.config errand) =
      some c) :
    errand.enqueued = none ∧ (market.view errand.station).Acts A c.state ∧
      c.state.station.opened = errand.station.opened ∧
      ((c.state.station.enqueued = none ∧ c.state.world.mail.admitted =
          market.actor.state.mail.admitted) ∨
        (exists e, c.state.station.enqueued = some e ∧
          c.state.world.mail.admitted =
            market.actor.state.mail.admitted ++ [e] ∧
          exists answer, c.prog = .pure answer ∧ answer.accepted = true)) := by
  have hnone : errand.enqueued = none := by
    cases henqueued : errand.enqueued with
    | none => rfl
    | some e =>
        have hsome : errand.enqueued.isSome = true := by
          rw [henqueued]
          rfl
        rcases h.reported errand hmem hsome with ⟨answer, hprog, _⟩
        unfold Market.config at hclient
        rw [hprog] at hclient
        cases hclient
  refine ⟨hnone, ?_⟩
  cases Machine.took_of_step hclient with
  | turned hsame =>
      rw [hsame]
      exact ⟨.refl _, rfl, Or.inl ⟨hnone, rfl⟩⟩
  | cancelled op next _ _ hsame =>
      rw [hsame]
      exact ⟨.refl _, rfl, Or.inl ⟨hnone, rfl⟩⟩
  | performed op next b hprog hexec hnext =>
      have hexec : op.exec A input (market.view errand.station) =
          some (c.state, b) := hexec
      have heffect := ClientOp.effect hexec
      refine ⟨heffect.acts, heffect.opened, ?_⟩
      rcases heffect.enqueues with ⟨henqueued, hacceptted⟩ |
        ⟨haccepts, e, henqueued, hacceptted⟩
      · exact Or.inl ⟨henqueued.trans hnone, hacceptted⟩
      · have hcommits := h.commits errand hmem
        have hprog : errand.prog = .act op next := hprog
        rw [hprog] at hcommits
        rw [hnext]
        exact Or.inr ⟨e, henqueued, hacceptted, (hcommits b).left haccepts⟩

theorem errand_step (h : market.Inv A) {index : Nat} {input : ClientInput}
    (hstep : market.step A (.errand index input) = some market') :
    market'.Inv A := by
  rw [Market.step] at hstep
  split at hstep
  · cases hstep
  · rename_i errand hindex
    rcases Option.map_eq_some_iff.mp hstep with ⟨c, hclient, hmarket'⟩
    subst hmarket'
    have hmem : errand ∈ market.errands := List.mem_of_getElem? hindex
    rcases h.errand_enqueues hmem hclient with
      ⟨hnone, hacts, _, henqueues⟩
    have hactor := h.actor_acts hacts
    have hnotices := hacts.view
    constructor
    · exact hactor.left
    · apply set_cases
      · intro other hother
        have haround := h.safe_around (e := .world c.state.world) hother
          hactor.right rfl
        unfold View.evolve at haround hnotices
        unfold Market.config Market.view
        rw [hnotices]
        exact haround
      · have hpermits : (clientDiscipline V M W A
            errand.request.waits).Permits (market.config errand)
              (.actor input) := by
          unfold Discipline.Permits
          cases (market.config errand).prog <;> trivial
        exact Safe.actor_step clientDiscipline_lawful
          (client_cancels errand.request) hpermits hclient (h.safe errand hmem)
    · apply set_cases h.commits
      exact Machine.Commits.step (fun _ _ _ hcancel => cancel_withholds hcancel)
        (h.commits errand hmem) hclient
    · apply set_cases h.reported
      intro hsome
      have hsome : c.state.station.enqueued.isSome = true := hsome
      rcases henqueues with ⟨hstill, _⟩ | ⟨e, _, _, hreported⟩
      · rw [hstill] at hsome
        cases hsome
      · exact hreported
    · show List.Perm ((market.errands.set index _).filterMap _)
        c.state.world.mail.admitted
      rcases henqueues with ⟨hstill, hsame⟩ | ⟨e, hsent, happend, _⟩
      · rw [filterMap_set_same (b := errand.proceed c) hindex
          (hstill.trans hnone.symm), hsame]
        exact h.ledger
      · have hsent' : (errand.proceed c).enqueued = some e := hsent
        have hset := filterMap_set_new hindex hnone hsent'
        rw [happend]
        exact (hset.trans (h.ledger.cons e)).trans
          (List.perm_append_singleton e _).symm

theorem step (h : market.Inv A) {event : MarketEvent V M W}
    (hstep : market.step A event = some market') : market'.Inv A := by
  cases event with
  | actor event => exact h.actor_step hstep
  | start request => exact h.start_step hstep
  | errand index input => exact h.errand_step hstep
  | notice => exact h.notice_step hstep
  | wake index => exact h.wake_step hstep

theorem run (h : market.Inv A) (hruns : Market.Runs A market market') :
    market'.Inv A := by
  induction hruns with
  | refl => exact h
  | step event _ hstep ih => exact ih.step hstep

theorem new (V M W : Type) (A : ActorConfig) :
    (Market.new V M W A).Inv A where
  actor := .refl
  safe := fun _ hmem => by cases hmem
  commits := fun _ hmem => by cases hmem
  reported := fun _ hmem => by cases hmem
  ledger := .nil

end Market.Inv

/-!
## Operations that come too late
-/

/-- The operations from one index on started after the gate had closed. -/
structure Market.Late (n : Nat) (market : Market V M W) : Prop where
  closing : Closing market.actor.state
  late : forall i errand, n <= i -> market.errands[i]? = some errand ->
    errand.station.opened = false

theorem Market.Late.set {n index : Nat} {errand : Errand M W}
    (h : market.Late n) (hn : n <= market.errands.length)
    (next : Errand M W) (hindex : market.errands[index]? = some errand)
    (hopened : next.station.opened = errand.station.opened) :
    (forall i other, n <= i ->
      (market.errands.set index next)[i]? = some other ->
        other.station.opened = false) ∧
      n <= (market.errands.set index next).length := by
  refine ⟨?_, by rw [List.length_set]; exact hn⟩
  intro i other hle hother
  by_cases heq : index = i
  · subst heq
    rw [List.getElem?_set_self (List.getElem?_eq_some_iff.mp hindex).1]
      at hother
    cases hother
    rw [hopened]
    exact h.late index errand hle hindex
  · rw [List.getElem?_set_ne heq] at hother
    exact h.late i other hle hother

theorem Market.Late.step {n : Nat} (h : market.Late n) (hinv : market.Inv A)
    {event : MarketEvent V M W} (hn : n <= market.errands.length)
    (hstep : market.step A event = some market') :
    market'.Late n ∧ n <= market'.errands.length := by
  cases event with
  | actor event =>
      rw [Market.step] at hstep
      split at hstep
      · cases hstep
      · rcases Option.map_eq_some_iff.mp hstep with ⟨c, hactor, hmarket'⟩
        subst hmarket'
        exact ⟨⟨(step_moves hactor).closing h.closing, h.late⟩, hn⟩
  | start request =>
      rw [Market.step] at hstep
      split at hstep
      · cases hstep
        refine ⟨⟨h.closing, ?_⟩, ?_⟩
        · intro i errand hle hindex
          by_cases hlt : i < market.errands.length
          · rw [List.getElem?_append_left hlt] at hindex
            exact h.late i errand hle hindex
          · rw [List.getElem?_append_right (Nat.le_of_not_lt hlt)] at hindex
            have hnew := List.mem_singleton.mp (List.mem_of_getElem? hindex)
            rw [hnew]
            exact decide_eq_false h.closing
        · rw [List.length_append]
          exact Nat.le_add_right_of_le hn
      · cases hstep
  | errand index input =>
      rw [Market.step] at hstep
      split at hstep
      · cases hstep
      · rename_i errand hindex
        rcases Option.map_eq_some_iff.mp hstep with ⟨c, hclient, hmarket'⟩
        subst hmarket'
        have hmem := List.mem_of_getElem? hindex
        rcases hinv.errand_enqueues hmem hclient with ⟨_, hacts, hopened, _⟩
        have hlate := h.set hn (errand.proceed c) hindex hopened
        exact ⟨⟨(hinv.actor_acts hacts).right.moves.closing h.closing,
          hlate.left⟩, hlate.right⟩
  | notice =>
      rw [Market.step] at hstep
      split at hstep
      · cases hstep
      · cases hstep
        refine ⟨⟨h.closing, ?_⟩, by rw [List.length_map]; exact hn⟩
        intro i errand hle hindex
        rw [List.getElem?_map] at hindex
        rcases Option.map_eq_some_iff.mp hindex with ⟨before, hbefore, heq⟩
        subst heq
        exact h.late i before hle hbefore
  | wake index =>
      rw [Market.step] at hstep
      split at hstep
      · cases hstep
      · rename_i errand hindex
        cases hstep
        have hlate := h.set hn (errand.setStation errand.station.wake)
          hindex rfl
        exact ⟨⟨h.closing, hlate.left⟩, hlate.right⟩

theorem Market.Late.run {n : Nat} (h : market.Late n) (hinv : market.Inv A)
    (hn : n <= market.errands.length)
    (hruns : Market.Runs A market market') :
    market'.Late n ∧ n <= market'.errands.length := by
  induction hruns with
  | refl => exact ⟨h, hn⟩
  | step event hbefore hstep ih =>
      exact ih.left.step (hinv.run hbefore) ih.right hstep

/-!
## Admission
-/

/-- Admission loses nothing, closes for good, and strands nobody. -/
structure Market.Admits (A : ActorConfig) (market : Market V M W) : Prop where
  /-- What was admitted is what the operations enqueued, each its own. -/
  ledger : (market.errands.filterMap Errand.enqueued).Perm
    market.actor.state.mail.admitted
  enqueued : forall errand, errand ∈ market.errands ->
    (errand.enqueued.isSome = true <->
      exists answer, errand.prog = .pure answer ∧ answer.accepted = true)
  /-- Every error returns what it retains, and every receiver waits for it. -/
  answered : forall errand, errand ∈ market.errands -> forall answer,
    errand.prog = .pure answer ->
      errand.request.Answers answer ∧
        forall receiver, answer.receiver = some receiver ->
          errand.enqueued.map Envelope.id = some receiver.id
  final : (exists errand, errand ∈ market.errands ∧ exists answer,
      errand.prog = .pure answer ∧ answer.isClosed = true) ->
    forall later, Market.Runs A market later ->
      forall i errand, market.errands.length <= i ->
        later.errands[i]? = some errand -> forall answer,
          errand.prog = .pure answer ->
            answer.accepted = false ∧ answer.isFull = false
  /-- After its reservation was denied it found the gate open. -/
  full : forall errand, errand ∈ market.errands -> forall answer,
    errand.prog = .pure answer -> answer.isFull = true ->
      exists rest, errand.station.observed =
        .running true :: .reservation .full :: rest
  /-- Its task is woken, or the notification that wakes it is under way. -/
  woken : forall errand, errand ∈ market.errands -> forall next,
    errand.prog = .act .suspend next ->
      market.actor.state.control.mode ≠ .running ->
        errand.station.task = true ∨
          (errand.station.registered = true ∧ 0 < market.notices)

theorem Market.Inv.told (h : market.Inv A) {errand : Errand M W}
    (hmem : errand ∈ market.errands) {answer : Answer M W}
    (hprog : errand.prog = .pure answer) :
    Told errand.request answer (market.view errand.station) := by
  have hsafe := h.safe errand hmem
  unfold Market.config at hsafe
  rw [hprog] at hsafe
  exact hsafe.returned (told_stable errand.request answer)

theorem Market.Inv.woken (h : market.Inv A) {errand : Errand M W}
    (hmem : errand ∈ market.errands) {next : Unit -> C (Answer M W)}
    (hprog : errand.prog = .act .suspend next)
    (hclosing : Closing market.actor.state) :
    errand.station.task = true ∨
      (errand.station.registered = true ∧ 0 < market.notices) := by
  have hsafe := h.safe errand hmem
  unfold Market.config at hsafe
  rw [hprog] at hsafe
  have hdemands : errand.request.waits = true ∧
      Unsent (market.view errand.station) ∧
        Attentive (market.view errand.station) := hsafe.demands
  refine hdemands.right.right.imp_right ?_
  intro hregistered
  refine ⟨hregistered.left, ?_⟩
  have hinv : ViewInv (market.view errand.station) := hsafe.inv
  rcases hregistered.right with ⟨n, hseen, hbehind⟩
  rcases hinv.heard hregistered.left with ⟨n', hseen', hchanges⟩
  rw [hseen] at hseen'
  cases hseen'
  have hlt := hbehind hclosing
  change _ <= n + market.notices at hchanges
  omega

/--
In every market, a message is enqueued if and only if its operation reports
acceptance, and otherwise it comes back.  The first report of closure is final,
a full mailbox is only reported of a running actor, and who waits for capacity
is woken when the mode changes.
-/
theorem admission_lossless (A : ActorConfig) (market : Market V M W)
    (h : Market.Runs A (.new V M W A) market) : market.Admits A := by
  have hinv := (Market.Inv.new V M W A).run h
  constructor
  · exact hinv.ledger
  · intro errand hmem
    constructor
    · exact hinv.reported errand hmem
    · rintro ⟨answer, hprog, haccepted⟩
      exact ((hinv.told hmem hprog).accepted haccepted).right
  · intro errand hmem answer hprog
    have htold := hinv.told hmem hprog
    exact ⟨htold.answers, htold.receiver⟩
  · rintro ⟨errand, hmem, answer, hprog, hclosed⟩ later hlater i late hle hindex
      answer' hprog'
    have hclosing : Closing market.actor.state :=
      (hinv.told hmem hprog).closed hclosed
    have hstart : market.Late market.errands.length := by
      refine ⟨hclosing, ?_⟩
      intro i errand hle hindex
      have hlt := (List.getElem?_eq_some_iff.mp hindex).1
      exact absurd hlt (Nat.not_lt_of_le hle)
    have hlate := (hstart.run hinv (Nat.le_refl _) hlater).left
    have hopened := hlate.late i late hle hindex
    have htold := (hinv.run hlater).told (List.mem_of_getElem? hindex) hprog'
    constructor
    · by_contra haccepted
      have hthen := (htold.accepted (by simpa using haccepted)).left
      exact absurd (hopened.symm.trans hthen) (by simp)
    · by_contra hfull
      have hthen := (htold.full (by simpa using hfull)).right.left
      exact absurd (hopened.symm.trans hthen) (by simp)
  · intro errand hmem answer hprog hfull
    exact ((hinv.told hmem hprog).full hfull).right.right
  · intro errand hmem next hprog hclosing
    exact hinv.woken hmem hprog hclosing

def counter : ActorConfig where
  mailbox := some (.bounded 1)
  limit := none
  limitPositive := solitary.limitPositive
  mailboxDispatchBudget := 1
  budgetPositive := solitary.budgetPositive
  children := none
  parent := false

/-- Takes the events one after another, as far as they can be taken. -/
def Market.play (A : ActorConfig) :
    List (MarketEvent V M W) -> Market V M W -> Market V M W
  | [], market => market
  | event :: rest, market => play A rest ((market.step A event).getD market)

theorem Market.Runs.play {start : Market V M W}
    (h : Market.Runs A start market) (events : List (MarketEvent V M W)) :
    Market.Runs A start (Market.play A events market) := by
  induction events generalizing market with
  | nil => exact h
  | cons event rest ih =>
      rw [Market.play]
      apply ih
      cases hstep : market.step A event with
      | none => exact h
      | some next => exact .step event h hstep

/--
A first message fills the mailbox, and a caller waits for capacity.  Then the
actor is stopped, and a third client finds it closed.
-/
def shutOut : Market Unit Nat Unit :=
  Market.play counter
    [.start (.trySend 7), .errand 0 .grant, .errand 0 .next,
      .start (.call .single 8), .errand 1 .deny, .errand 1 .next,
      .errand 1 .next, .errand 1 .next, .errand 1 .next, .errand 1 .deny,
      .errand 1 .next, .actor (.env (.request .stop)),
      .start (.trySend 9), .errand 2 .deny, .errand 2 .next]
    (.new Unit Nat Unit counter)

/-- The statement applies to clients that a Stop finds in all these places. -/
theorem shutOut_admits :
    shutOut.errands.map (fun errand => errand.enqueued.isSome) =
        [true, false, false] ∧
      shutOut.errands.map (fun errand => errand.station.registered) =
        [false, true, false] ∧
      shutOut.actor.state.control.mode = .stopping ∧ shutOut.notices = 1 ∧
        shutOut.Admits counter :=
  ⟨by decide +kernel, by decide +kernel, by decide +kernel, by decide +kernel,
    admission_lossless counter shutOut (Market.Runs.refl.play _)⟩

end Loac

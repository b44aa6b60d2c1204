import Loac.Admission.Lossless

/-!
# Outcomes of calls

The caller of a message is told one result, and it names the last phase that
committed: no admission, no dispatch, no completion, or the completion with the
value that the handler returned.
-/

namespace Loac

open Interleave

variable {V M W : Type} {A : ActorConfig} {c : ActorState V} {w : World V}
  {mail : Mail V} {e : Envelope} {id : Nat} {response : Response V}

/-- The result that the caller of a message has been told. -/
def Mail.outcome (mail : Mail V) (id : Nat) : Option (Response V) :=
  if id ∈ mail.refused then
    some (.error .closed)
  else
    mail.responses.lookup id

/-- The kinds whose receiver waits for a single value. -/
def Kind.isSingle : Kind -> Bool
  | .call => true
  | .callTo => true
  | _ => false

theorem Kind.isSingle_hasReceiver {kind : Kind} (h : kind.isSingle = true) :
    kind.hasReceiver = true := by
  cases kind <;> first
    | rfl
    | cases h

theorem Mail.mem_of_lookup (h : mail.responses.lookup id = some response) :
    (id, response) ∈ mail.responses := by
  rcases List.lookup_eq_some_iff.mp h with ⟨before, after, heq, _⟩
  rw [heq]
  exact List.mem_append_right _ (List.mem_cons_self ..)

theorem Mail.lookup_of_answered (h : mail.Answered id) :
    exists response, mail.responses.lookup id = some response := by
  rcases List.mem_map.mp h with ⟨pair, hmem, hid⟩
  apply Option.isSome_iff_exists.mp
  exact List.lookup_isSome_iff.mpr ⟨pair, hmem, by simp [hid]⟩

theorem Mail.lookup_of_mem (honce : (mail.responses.map Prod.fst).Nodup)
    (h : (id, response) ∈ mail.responses) :
    mail.responses.lookup id = some response := by
  have hanswered : mail.Answered id := List.mem_map_of_mem h
  rcases lookup_of_answered hanswered with ⟨response', hlookup⟩
  have heq := List.inj_on_of_nodup_map honce (mem_of_lookup hlookup) h rfl
  cases heq
  exact hlookup

/-!
## What a result says
-/

/-- A result of a single value names the last phase that committed. -/
structure Truthful (w : World V) (e : Envelope) (response : Response V) :
    Prop where
  beforeDispatch : (exists reason, response = .error (.beforeDispatch reason)) <->
    e ∉ w.mail.dispatched
  duringDispatch : (exists reason, response = .error (.duringDispatch reason)) <->
    e ∈ w.mail.dispatched ∧ e.id ∉ w.mail.completed
  ok : (exists v, response = .ok (some v)) <-> e.id ∈ w.mail.completed
  value : forall v, response = .ok (some v) -> (e.id, v) ∈ w.mail.returned
  reason : forall reason,
    response = .error (.beforeDispatch reason) ∨
      response = .error (.duringDispatch reason) ->
    Blames w.control.committed reason

theorem MailInv.truthful (h : MailInv w) (hmem : e ∈ w.mail.admitted)
    (hkind : e.kind.isSingle = true) (hkept : e.id ∉ w.mail.abandoned)
    (hresponse : (e.id, response) ∈ w.mail.responses) :
    Truthful w e response := by
  have htells := h.told e.id response hresponse
  have hsame {e' : Envelope} (hmem' : e' ∈ w.mail.admitted)
      (hid : e'.id = e.id) : e' = e :=
    h.conserved.eq_of_id hmem' hmem hid
  have hcompleted : e.id ∈ w.mail.completed -> e ∈ w.mail.dispatched := by
    intro hdone
    rcases h.completed e.id hdone with ⟨e', hmem', hid⟩
    rwa [hsame (h.conserved.dispatched_admitted hmem') hid] at hmem'
  cases response with
  | error error =>
      cases error with
      | beforeDispatch reason =>
          rcases htells with ⟨⟨e', hmem', hid, _⟩, hreason⟩
          rw [hsame (h.conserved.rejected_admitted hmem') hid] at hmem'
          have hnot : e ∉ w.mail.dispatched :=
            fun hdispatched => h.conserved.not_rejected hdispatched hmem'
          exact {
            beforeDispatch := ⟨fun _ => hnot, fun _ => ⟨reason, rfl⟩⟩
            duringDispatch := by
              constructor
              · rintro ⟨_, heq⟩
                cases heq
              · intro hdispatched
                exact absurd hdispatched.left hnot
            ok := by
              constructor
              · rintro ⟨_, heq⟩
                cases heq
              · intro hdone
                exact absurd (hcompleted hdone) hnot
            value := by
              intro v heq
              cases heq
            reason := by
              intro reason' heq
              rcases heq with heq | heq
              · cases heq
                exact hreason.resolve_left hkept
              · cases heq }
      | duringDispatch reason =>
          rcases htells with ⟨⟨e', hmem', hid, _⟩, hopen, hreason⟩
          rw [hsame (h.conserved.dispatched_admitted hmem') hid] at hmem'
          exact {
            beforeDispatch := by
              constructor
              · rintro ⟨_, heq⟩
                cases heq
              · intro hnot
                exact absurd hmem' hnot
            duringDispatch := ⟨fun _ => ⟨hmem', hopen⟩, fun _ => ⟨reason, rfl⟩⟩
            ok := by
              constructor
              · rintro ⟨_, heq⟩
                cases heq
              · intro hdone
                exact absurd hdone hopen
            value := by
              intro v heq
              cases heq
            reason := by
              intro reason' heq
              rcases heq with heq | heq
              · cases heq
              · cases heq
                exact hreason }
      | closed => exact htells.elim
      | responseLost => exact htells.elim
  | ok value =>
      rcases htells with ⟨e', hmem', hid, _, hdone, hvalue⟩
      have heq := hsame (h.conserved.dispatched_admitted hmem') hid
      rw [heq] at hmem' hvalue
      cases value with
      | none =>
          change e.kind = .stream at hvalue
          rw [hvalue] at hkind
          cases hkind
      | some v =>
          exact {
            beforeDispatch := by
              constructor
              · rintro ⟨_, heq⟩
                cases heq
              · intro hnot
                exact absurd hmem' hnot
            duringDispatch := by
              constructor
              · rintro ⟨_, heq⟩
                cases heq
              · intro hopen
                exact absurd hdone hopen.right
            ok := ⟨fun _ => hdone, fun _ => ⟨v, rfl⟩⟩
            value := by
              intro v' heq
              cases heq
              exact hvalue
            reason := by
              intro reason heq
              rcases heq with heq | heq <;> cases heq }

theorem MailInv.closed_iff (h : MailInv w) (hid : id < w.mail.nextId) :
    w.mail.outcome id = some (.error .closed) <->
      ¬ exists e, e ∈ w.mail.admitted ∧ e.id = id := by
  unfold Mail.outcome
  by_cases hrefused : id ∈ w.mail.refused
  · rw [if_pos hrefused]
    refine ⟨fun _ => ?_, fun _ => rfl⟩
    rintro ⟨e, hmem, heq⟩
    apply h.conserved.disjoint e hmem
    rwa [heq]
  · rw [if_neg hrefused]
    constructor
    · intro hlookup
      exact (h.told id _ (Mail.mem_of_lookup hlookup)).elim
    · intro hnone
      exact absurd ((h.conserved.decided id).mp hid)
        (fun hdecided => hdecided.elim hrefused hnone)

theorem MailInv.outcome_of_admitted (h : MailInv w)
    (hmem : e ∈ w.mail.admitted) :
    w.mail.outcome e.id = w.mail.responses.lookup e.id :=
  if_neg (h.conserved.disjoint e hmem)

theorem MailInv.delivered (h : MailInv w) (hmem : e ∈ w.mail.admitted) {v : V}
    (hsoft : ¬ Hardened w)
    (hdelivered : Hardened w ∨
      (e.id, .ok (some v)) ∈ w.mail.responses) :
    w.mail.outcome e.id = some (.ok (some v)) := by
  rw [h.outcome_of_admitted hmem]
  exact Mail.lookup_of_mem h.once (hdelivered.resolve_left hsoft)

/-!
## What the operation of a client reports
-/

/-- The answer of an operation says whether its message was admitted. -/
structure Market.Reports (market : Market V M W) (errand : Errand M W)
    (answer : Answer M W) : Prop where
  closed : answer.isClosed = true -> errand.enqueued = none
  unsent : errand.enqueued = none ->
    answer.isClosed = true ∨ answer.isFull = true ∨ answer = .cancelled
  receiver : forall receiver, answer.receiver = some receiver ->
    exists e, errand.enqueued = some e ∧
      e ∈ market.actor.state.mail.admitted ∧ e.id = receiver.id

theorem Answer.closed_not_accepted {answer : Answer M W}
    (h : answer.isClosed = true) : answer.accepted = false := by
  cases answer with
  | cancelled => cases h
  | _ result =>
      cases result with
      | ok _ => cases h
      | error _ => rfl

theorem Request.Answers.refused {request : Request M W} {answer : Answer M W}
    (h : request.Answers answer) (hrefused : answer.accepted = false) :
    answer.isClosed = true ∨ answer.isFull = true ∨ answer = .cancelled := by
  cases answer with
  | cancelled => exact Or.inr (Or.inr rfl)
  | tryCall result =>
      rcases result with ⟨kind, message⟩ | receiver
      · cases kind with
        | closed => exact Or.inl rfl
        | full => exact Or.inr (Or.inl rfl)
      · cases hrefused
  | trySend result =>
      rcases result with ⟨kind, message⟩ | receiver
      · cases kind with
        | closed => exact Or.inl rfl
        | full => exact Or.inr (Or.inl rfl)
      · cases hrefused
  | send result =>
      cases result with
      | error _ => exact Or.inl rfl
      | ok _ => cases hrefused
  | sendTo result =>
      cases result with
      | error _ => exact Or.inl rfl
      | ok _ => cases hrefused
  | call result =>
      cases result with
      | ok _ => cases hrefused
      | error error =>
          cases request with
          | call kind message => exact Or.inl (decide_eq_true (h error rfl))
          | _ => cases h
  | callTo result =>
      cases result with
      | ok _ => cases hrefused
      | error error =>
          cases request with
          | callTo message out => exact Or.inl (decide_eq_true (h error rfl))
          | _ => cases h

theorem Market.Inv.reports {market : Market V M W} (h : market.Inv A)
    {errand : Errand M W} (hmem : errand ∈ market.errands)
    {answer : Answer M W} (hprog : errand.prog = .pure answer) :
    market.Reports errand answer := by
  have htold := h.told hmem hprog
  constructor
  · intro hclosed
    exact htold.refused (Answer.closed_not_accepted hclosed)
  · intro hunsent
    apply htold.answers.refused
    by_contra haccepted
    have hsent := (htold.accepted (by simpa using haccepted)).right
    change errand.enqueued.isSome = true at hsent
    rw [hunsent] at hsent
    cases hsent
  · intro receiver hreceiver
    have hid := htold.receiver receiver hreceiver
    rcases Option.map_eq_some_iff.mp hid with ⟨e, henqueued, heq⟩
    refine ⟨e, henqueued, ?_, heq⟩
    exact h.ledger.mem_iff.mp (List.mem_filterMap.mpr ⟨errand, hmem, henqueued⟩)

/--
A message that was tried is told that admission is closed exactly if it was not
admitted, and this is what the operation of its client reports.  A call that was
admitted and whose response is kept is answered once, and truthfully; until then it is queued or scheduled wherever the task is
suspended, and it is answered when the actor's life is over.  Unless a hard mode
commits, the value that a handler returned is what its caller is told.
-/
theorem call_outcome_truthful (A : ActorConfig) (c : ActorState V)
    (h : Reachable A c) :
    (c.state.mail.responses.map Prod.fst).Nodup ∧
    (forall id, id < c.state.mail.nextId ->
      (c.state.mail.outcome id = some (.error .closed) <->
        ¬ exists e, e ∈ c.state.mail.admitted ∧ e.id = id)) ∧
    (forall (M W : Type) (market : Market V M W),
      Market.Runs A (.new V M W A) market -> market.actor = c ->
        forall errand, errand ∈ market.errands ->
          forall answer, errand.prog = .pure answer ->
            market.Reports errand answer) ∧
    forall e, e ∈ c.state.mail.admitted -> e.kind.isSingle = true ->
      e.id ∉ c.state.mail.abandoned ->
      (forall response, c.state.mail.outcome e.id = some response ->
        Truthful c.state e response) ∧
      (isOver c = true -> exists response,
        c.state.mail.outcome e.id = some response) ∧
      (forall site, suspendedAt c = some site ->
        c.state.mail.outcome e.id = none ->
        e ∈ c.state.mail.queue ∨
          exists key, c.state.sched.holds key = some (.caller e.id)) ∧
      (forall v, (e.id, v) ∈ c.state.mail.returned -> ¬ Hardened c.state ->
        (isOver c = true ∨ exists site, suspendedAt c = some site) ->
        c.state.mail.outcome e.id = some (.ok (some v))) := by
  have hinv : MailInv c.state := (delivery_safe h).inv
  refine ⟨hinv.once, fun id => hinv.closed_iff, ?_, ?_⟩
  · intro M W market hruns _ errand hmem answer hprog
    exact ((Market.Inv.new V M W A).run hruns).reports hmem hprog
  intro e hmem hkind hkept
  have houtcome := hinv.outcome_of_admitted hmem
  have hreceiver := Kind.isSingle_hasReceiver hkind
  refine ⟨?_, ?_, ?_, ?_⟩
  · intro response hresponse
    rw [houtcome] at hresponse
    exact hinv.truthful hmem hkind hkept (Mail.mem_of_lookup hresponse)
  · intro hover
    rw [houtcome]
    exact Mail.lookup_of_answered
      ((squared_of_isOver h hover).answered e hmem hreceiver)
  · intro site hsuspended hnone
    have hsettled := settled_of_suspended h hsuspended
    rcases hsettled.owned e hmem hreceiver with
      hanswered | hqueue | hhand | hscheduled | hdebt
    · rcases Mail.lookup_of_answered hanswered with ⟨response, hlookup⟩
      rw [houtcome, hlookup] at hnone
      cases hnone
    · exact Or.inl hqueue
    · cases hhand
    · exact Or.inr hscheduled
    · cases hdebt
  · intro v hreturned hsoft hend
    apply hinv.delivered hmem hsoft
    rcases hend with hover | ⟨site, hsuspended⟩
    · exact (squared_of_isOver h hover).delivered e.id v hreturned
    · rcases (settled_of_suspended h hsuspended).delivered e.id v hreturned with
        hhard | hsent | hvalue
      · exact Or.inl hhard
      · exact Or.inr hsent
      · cases hvalue

/-- The statement applies to a call that panicked. -/
theorem panickedReply_outcome :
    exists response,
      panickedReply.state.mail.outcome 0 = some response :=
  ((call_outcome_truthful sociable panickedReply
    (Machine.stage_reaches (fun _ => trivial) (fun _ _ _ => trivial) _ _ _)
    ).right.right.right { id := 0, kind := .call } (by decide +kernel) rfl
      (by decide +kernel)).right.left (by decide +kernel)

end Loac

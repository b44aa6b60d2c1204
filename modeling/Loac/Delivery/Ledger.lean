import Loac.Frames

/-!
# The ledger of the mailbox

An admitted envelope waits in the queue, or it is in the hand of the actor
task, or it was dispatched or rejected.  It never is in two of these places,
and it leaves the queue in the order of admission.
-/

namespace Loac

variable {V : Type} {mail mail' : Mail V} {envelope : Envelope}

structure Mail.Conserved (mail : Mail V) : Prop where
  places : (mail.queue ++ mail.hand ++ mail.dispatched ++ mail.rejected).Perm
    mail.admitted
  order : mail.admitted = mail.attempted ++ mail.discarded ++ mail.queue
  distinct : (mail.admitted.map Envelope.id).Nodup
  decided : forall id, id < mail.nextId <->
    id ∈ mail.refused ∨ exists e, e ∈ mail.admitted ∧ e.id = id
  disjoint : forall e, e ∈ mail.admitted -> e.id ∉ mail.refused

namespace Mail.Conserved

theorem new (V : Type) : (Mail.new : Mail V).Conserved where
  places := .refl _
  order := rfl
  distinct := List.nodup_nil
  decided := by simp [Mail.new]
  disjoint := by simp [Mail.new]

theorem nodup (h : mail.Conserved) :
    (mail.queue ++ mail.hand ++ mail.dispatched ++ mail.rejected).Nodup :=
  h.places.nodup_iff.mpr (List.Nodup.of_map _ h.distinct)

theorem mem_admitted (h : mail.Conserved) :
    envelope ∈ mail.admitted <->
      envelope ∈ mail.queue ∨ envelope ∈ mail.hand ∨
        envelope ∈ mail.dispatched ∨ envelope ∈ mail.rejected := by
  rw [← h.places.mem_iff]
  simp only [List.mem_append, or_assoc]

theorem dispatched_admitted (h : mail.Conserved)
    (hmem : envelope ∈ mail.dispatched) : envelope ∈ mail.admitted :=
  h.mem_admitted.mpr (Or.inr (Or.inr (Or.inl hmem)))

theorem rejected_admitted (h : mail.Conserved)
    (hmem : envelope ∈ mail.rejected) : envelope ∈ mail.admitted :=
  h.mem_admitted.mpr (Or.inr (Or.inr (Or.inr hmem)))

theorem not_rejected (h : mail.Conserved)
    (hmem : envelope ∈ mail.dispatched) : envelope ∉ mail.rejected := by
  intro hrejected
  have hdisjoint := (List.nodup_append.mp h.nodup).right.right
  exact hdisjoint envelope (List.mem_append_right _ hmem) envelope hrejected rfl

theorem eq_of_id (h : mail.Conserved) {e e' : Envelope}
    (hmem : e ∈ mail.admitted) (hmem' : e' ∈ mail.admitted)
    (hid : e.id = e'.id) : e = e' :=
  List.inj_on_of_nodup_map h.distinct hmem hmem' hid

theorem attempted_admitted (h : mail.Conserved)
    (hmem : envelope ∈ mail.attempted) : envelope ∈ mail.admitted := by
  rw [h.order]
  exact List.mem_append_left _ (List.mem_append_left _ hmem)

/-!
## Clients
-/

structure Keeps (mail mail' : Mail V) : Prop where
  queue : mail'.queue = mail.queue
  hand : mail'.hand = mail.hand
  dispatched : mail'.dispatched = mail.dispatched
  rejected : mail'.rejected = mail.rejected
  admitted : mail'.admitted = mail.admitted
  attempted : mail'.attempted = mail.attempted
  discarded : mail'.discarded = mail.discarded
  nextId : mail'.nextId = mail.nextId
  refused : mail'.refused = mail.refused

theorem keeps (h : mail.Conserved) (hkeeps : Keeps mail mail') :
    mail'.Conserved where
  places := by
    rw [hkeeps.queue, hkeeps.hand, hkeeps.dispatched, hkeeps.rejected,
      hkeeps.admitted]
    exact h.places
  order := by
    rw [hkeeps.queue, hkeeps.attempted, hkeeps.discarded, hkeeps.admitted]
    exact h.order
  distinct := by
    rw [hkeeps.admitted]
    exact h.distinct
  decided := by
    rw [hkeeps.admitted, hkeeps.nextId, hkeeps.refused]
    exact h.decided
  disjoint := by
    rw [hkeeps.admitted, hkeeps.refused]
    exact h.disjoint

theorem refuse (h : mail.Conserved) : mail.refuse.Conserved where
  places := h.places
  order := h.order
  distinct := h.distinct
  decided := by
    intro id
    have hdecided := h.decided id
    show id < mail.nextId + 1 <-> id ∈ mail.nextId :: mail.refused ∨ _
    rw [Nat.lt_succ_iff_lt_or_eq, hdecided, List.mem_cons]
    constructor
    · rintro ((hrefused | hadmitted) | heq)
      · exact Or.inl (Or.inr hrefused)
      · exact Or.inr hadmitted
      · exact Or.inl (Or.inl heq)
    · rintro ((heq | hrefused) | hadmitted)
      · exact Or.inr heq
      · exact Or.inl (Or.inl hrefused)
      · exact Or.inl (Or.inr hadmitted)
  disjoint := by
    intro e hmem hrefused
    cases List.mem_cons.mp hrefused with
    | inl heq =>
        have hlt := (h.decided e.id).mpr (Or.inr ⟨e, hmem, rfl⟩)
        rw [heq] at hlt
        exact Nat.lt_irrefl _ hlt
    | inr hold => exact h.disjoint e hmem hold

theorem enqueue (h : mail.Conserved) (kind : Kind) (reserved : Nat) :
    ({ mail with
      queue := mail.queue ++ [{ id := mail.nextId, kind := kind }]
      reserved := reserved
      waker := false
      nextId := mail.nextId + 1
      admitted := mail.admitted ++ [{ id := mail.nextId, kind := kind }] } :
        Mail V).Conserved where
  places := by
    have hplaces := h.places
    rw [List.perm_iff_count] at hplaces ⊢
    intro e
    have hcount := hplaces e
    simp only [List.count_append] at hcount ⊢
    omega
  order := by
    show mail.admitted ++ _ = _
    rw [h.order]
    simp only [List.append_assoc]
  distinct := by
    rw [List.map_append, List.nodup_append]
    refine ⟨h.distinct, List.nodup_singleton _, ?_⟩
    intro id hid id' hid' heq
    rcases List.mem_map.mp hid with ⟨e, hmem, he⟩
    have hlt := (h.decided id).mpr (Or.inr ⟨e, hmem, he⟩)
    rw [heq, List.mem_singleton.mp hid'] at hlt
    exact Nat.lt_irrefl _ hlt
  decided := by
    intro id
    have hdecided := h.decided id
    show id < mail.nextId + 1 <-> _
    rw [Nat.lt_succ_iff_lt_or_eq, hdecided]
    simp only [List.mem_append, List.mem_singleton]
    constructor
    · rintro ((hrefused | ⟨e, hmem, he⟩) | heq)
      · exact Or.inl hrefused
      · exact Or.inr ⟨e, Or.inl hmem, he⟩
      · exact Or.inr ⟨_, Or.inr rfl, heq.symm⟩
    · rintro (hrefused | ⟨e, hmem | hmem, he⟩)
      · exact Or.inl (Or.inl hrefused)
      · exact Or.inl (Or.inr ⟨e, hmem, he⟩)
      · subst hmem
        exact Or.inr he.symm
  disjoint := by
    intro e hmem hrefused
    cases List.mem_append.mp hmem with
    | inl hold => exact h.disjoint e hold hrefused
    | inr hnew =>
        rw [List.mem_singleton.mp hnew] at hrefused
        have hlt := (h.decided mail.nextId).mpr (Or.inl hrefused)
        exact Nat.lt_irrefl _ hlt

/-!
## The actor task
-/

/-- Taking an envelope for dispatch keeps the order while nothing was discarded. -/
theorem pollRecv (h : mail.Conserved) (hdiscarded : mail.discarded = [])
    (transport : Transport) (reception : Reception) :
    (mail.pollRecv transport reception).1.Conserved := by
  unfold Mail.pollRecv
  by_cases hrefused : reception = .refused
  · rw [if_pos hrefused]
    exact h
  rw [if_neg hrefused]
  cases hqueue : mail.queue with
  | nil =>
      simp only
      split
      · exact h
      · exact h.keeps ⟨hqueue.symm, rfl, rfl, rfl, rfl, rfl, rfl, rfl, rfl⟩
  | cons e rest =>
      have hplaces := h.places
      have horder := h.order
      rw [hqueue] at hplaces horder
      exact {
        places := by
          rw [List.perm_iff_count] at hplaces ⊢
          intro e'
          have hcount := hplaces e'
          simp only [List.count_append, List.count_cons] at hcount ⊢
          omega
        order := by
          show mail.admitted = mail.attempted ++ [e] ++ mail.discarded ++ rest
          rw [horder, hdiscarded]
          simp
        distinct := h.distinct
        decided := h.decided
        disjoint := h.disjoint }

theorem tryRecv (h : mail.Conserved) : mail.tryRecv.1.Conserved := by
  unfold Mail.tryRecv
  cases hqueue : mail.queue with
  | nil => exact h
  | cons e rest =>
      have hplaces := h.places
      have horder := h.order
      rw [hqueue] at hplaces horder
      exact {
        places := by
          rw [List.perm_iff_count] at hplaces ⊢
          intro e'
          have hcount := hplaces e'
          simp only [List.count_append, List.count_cons] at hcount ⊢
          omega
        order := by
          show mail.admitted = mail.attempted ++ (mail.discarded ++ [e]) ++ rest
          rw [horder]
          simp
        distinct := h.distinct
        decided := h.decided
        disjoint := h.disjoint }

theorem settle (h : mail.Conserved) (hmem : envelope ∈ mail.hand)
    {dispatched rejected : List Envelope}
    (hplaces : (dispatched ++ rejected).Perm
      (envelope :: (mail.dispatched ++ mail.rejected))) :
    ({ mail with
      hand := mail.hand.erase envelope
      dispatched := dispatched
      rejected := rejected } : Mail V).Conserved where
  places := by
    have hbefore := h.places
    have hhand := List.perm_cons_erase hmem
    rw [List.perm_iff_count] at hbefore hhand hplaces ⊢
    intro e
    have hcount := hbefore e
    have hcountHand := hhand e
    have hcountPlaces := hplaces e
    simp only [List.count_append, List.count_cons] at hcount hcountHand hcountPlaces ⊢
    omega
  order := h.order
  distinct := h.distinct
  decided := h.decided
  disjoint := h.disjoint

theorem reject (h : mail.Conserved) (envelope : Envelope) :
    (mail.reject envelope).Conserved := by
  unfold Mail.reject
  by_cases hmem : envelope ∈ mail.hand
  · rw [if_pos hmem]
    exact h.settle hmem List.perm_middle
  · rw [if_neg hmem]
    exact h

theorem dispatch (h : mail.Conserved) (hmem : envelope ∈ mail.hand) :
    ({ mail with
      hand := mail.hand.erase envelope
      dispatched := envelope :: mail.dispatched } : Mail V).Conserved :=
  h.settle hmem (.refl _)

end Mail.Conserved

end Loac

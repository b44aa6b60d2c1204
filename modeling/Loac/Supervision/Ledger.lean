import Loac.Supervision.Registrations

/-!
# The ledger of registrations

Every child that was ever registered is retained, reaped or cleared, and what a
retained child published is told by exactly one exit event.
-/

namespace Loac

namespace Kin

def sent (kin : Kin) (key : Key) : List ChildExit :=
  (kin.events ++ kin.hand).filter (fun event => event.child = key)

structure Exact (limit : Option Nat) (reaped : List Key) (kin : Kin) :
    Prop where
  limited : forall n, limit = some n -> kin.actors.length <= n
  accounts : (kin.actors ++ (reaped ++ kin.cleared)).Perm (List.range kin.next)
  bound : forall event, event ∈ kin.events ++ kin.hand -> event.child < kin.next
  sent : forall key, key ∈ kin.actors ->
    (kin.sent key).Perm ((kin.children key).published.map (ChildExit.mk key))
  published : forall key, key ∈ kin.actors ->
    (kin.children key).published = [] ∨
      exists status, (kin.children key).published = [status] ∧
        (kin.children key).mode = .exited status

variable {kin kin' : Kin} {limit : Option Nat} {reaped : List Key}

theorem new_exact (limit : Option Nat) : new.Exact limit [] where
  limited := fun _ _ => Nat.zero_le _
  accounts := .refl _
  bound := fun _ hmem => by cases hmem
  sent := fun _ hmem => by cases hmem
  published := fun _ hmem => by cases hmem

namespace Exact

theorem nodup (h : kin.Exact limit reaped) :
    (kin.actors ++ (reaped ++ kin.cleared)).Nodup :=
  h.accounts.nodup_iff.mpr List.nodup_range

theorem retained_lt (h : kin.Exact limit reaped) {key : Key}
    (hkey : key ∈ kin.actors) : key < kin.next := by
  have hmem := h.accounts.mem_iff.mp (List.mem_append_left _ hkey)
  exact List.mem_range.mp hmem

theorem reaped_nodup (h : kin.Exact limit reaped) : reaped.Nodup :=
  (List.nodup_append.mp (List.nodup_append.mp h.nodup).right.left).left

theorem keeps (h : kin.Exact limit reaped) (hactors : kin'.actors = kin.actors)
    (hcleared : kin'.cleared = kin.cleared) (hnext : kin'.next = kin.next)
    (hevents : kin'.events = kin.events) (hhand : kin'.hand = kin.hand)
    (hpublished : forall key,
      (kin'.children key).published = (kin.children key).published)
    (hmodes : forall key, (kin'.children key).mode = (kin.children key).mode ∨
      (kin.children key).mode.Advances (kin'.children key).mode) :
    kin'.Exact limit reaped where
  limited := by
    rw [hactors]
    exact h.limited
  accounts := by
    rw [hactors, hcleared, hnext]
    exact h.accounts
  bound := by
    rw [hevents, hhand, hnext]
    exact h.bound
  sent := by
    intro key hkey
    rw [hactors] at hkey
    unfold Kin.sent
    rw [hevents, hhand, hpublished]
    exact h.sent key hkey
  published := by
    intro key hkey
    rw [hactors] at hkey
    rw [hpublished]
    rcases h.published key hkey with hnone | ⟨status, hsome, hexited⟩
    · exact Or.inl hnone
    · refine Or.inr ⟨status, hsome, ?_⟩
      cases hmodes key with
      | inl hsame => exact hsame.trans hexited
      | inr hadvances => exact absurd hexited (hadvances.not_exited status)

theorem advance (h : kin.Exact limit reaped) {key : Key} {next : Mode}
    (hnext : next = (kin.children key).mode ∨
      (kin.children key).mode.Advances next) :
    (kin.advance key next).1.Exact limit reaped := by
  have hfollows := advance_follows hnext
  have hpublished : forall key',
      ((kin.advance key next).1.children key').published =
        (kin.children key').published := by
    intro key'
    unfold Kin.advance
    split
    · rfl
    · split
      · show ((kin.setChild key _).children key').published = _
        rw [children_setChild]
        split
        · rename_i heq
          rw [heq]
        · rfl
      · rw [children_setChild]
        split
        · rename_i heq
          rw [heq]
        · rfl
  apply h.keeps hfollows.actors _ hfollows.next _ _ hpublished hfollows.modes
  all_goals
    unfold Kin.advance
    split
    · rfl
    · split <;> rfl

theorem wait (h : kin.Exact limit reaped) (key : Key) :
    (kin.wait key).1.Exact limit reaped := by
  have hnote : forall status, (kin.note status).Exact limit reaped := by
    intro status
    unfold note
    split
    · exact { h with }
    · exact h
  unfold Kin.wait
  split
  · exact { hnote _ with }
  · exact { h with }

/-- A spawn registers the next child while there is room. -/
theorem spawn (h : kin.Exact limit reaped)
    (hroom : forall n, limit = some n -> kin.actors.length < n) :
    kin.spawn.Exact limit reaped := by
  have hchild : forall key, key < kin.next ->
      kin.spawn.children key = kin.children key := by
    intro key hlt
    show (kin.setChild kin.next _).children key = _
    rw [children_setChild, if_neg (Nat.ne_of_lt hlt)]
  have hfresh : (kin.spawn.children kin.next).published = [] := by
    show ((kin.setChild kin.next _).children kin.next).published = _
    rw [children_setChild, if_pos rfl]
  have hold : forall key, key ∈ kin.spawn.actors ->
      (key ∈ kin.actors ∧ key < kin.next) ∨ key = kin.next := by
    intro key hkey
    cases List.mem_append.mp hkey with
    | inl hkey => exact Or.inl ⟨hkey, h.retained_lt hkey⟩
    | inr hkey => exact Or.inr (List.mem_singleton.mp hkey)
  constructor
  · intro n hlimit
    show (kin.actors ++ [kin.next]).length <= n
    rw [List.length_append]
    exact hroom n hlimit
  · show ((kin.actors ++ [kin.next]) ++ (reaped ++ kin.cleared)).Perm
      (List.range (kin.next + 1))
    rw [List.range_succ, List.append_assoc]
    have hmoved : (kin.actors ++ ([kin.next] ++ (reaped ++ kin.cleared))).Perm
        (kin.actors ++ ((reaped ++ kin.cleared) ++ [kin.next])) :=
      List.Perm.append_left _ List.perm_append_comm
    refine hmoved.trans ?_
    rw [← List.append_assoc]
    exact h.accounts.append_right _
  · intro event hevent
    exact Nat.lt_succ_of_lt (h.bound event hevent)
  · intro key hkey
    rcases hold key hkey with ⟨hkey, hlt⟩ | heq
    · rw [hchild key hlt]
      exact h.sent key hkey
    · subst heq
      rw [hfresh]
      have hnone : kin.spawn.sent kin.next = [] := by
        apply List.filter_eq_nil_iff.mpr
        intro event hevent heq
        have hlt := h.bound event hevent
        rw [of_decide_eq_true heq] at hlt
        exact Nat.lt_irrefl _ hlt
      rw [hnone]
      exact .refl _
  · intro key hkey
    rcases hold key hkey with ⟨hkey, hlt⟩ | heq
    · rw [hchild key hlt]
      exact h.published key hkey
    · subst heq
      exact Or.inl hfresh

theorem publish (h : kin.Exact limit reaped) {key : Key}
    (hlt : key < kin.next) (hpublish : kin.publish key = some kin') :
    kin'.Exact limit reaped := by
  unfold Kin.publish at hpublish
  split at hpublish
  case h_2 => cases hpublish
  case h_1 status hmode hnone =>
    cases hpublish
    have hchildren : forall key',
        (kin.setChild key { kin.children key with
          published := [status] }).children key' =
            if key' = key then { kin.children key with published := [status] }
            else kin.children key' := fun key' => children_setChild ..
    constructor
    · exact h.limited
    · exact h.accounts
    · intro event hevent
      rw [List.append_assoc, List.mem_append] at hevent
      rcases hevent with hold | hrest
      · exact h.bound event (List.mem_append_left _ hold)
      · rcases List.mem_append.mp hrest with hnew | hhand
        · rw [List.mem_singleton.mp hnew]
          exact hlt
        · exact h.bound event (List.mem_append_right _ hhand)
    · intro key' hkey'
      have hold := h.sent key' hkey'
      show (List.filter _ ((kin.events ++ [_]) ++ kin.hand)).Perm _
      rw [hchildren]
      by_cases heq : key' = key
      · subst heq
        rw [if_pos rfl]
        rw [hnone] at hold
        have hnothing : kin.sent key' = [] := hold.eq_nil
        unfold Kin.sent at hnothing
        rw [List.filter_append] at hnothing
        have hparts := List.append_eq_nil_iff.mp hnothing
        rw [List.filter_append, List.filter_append, hparts.left,
          hparts.right]
        simp
      · rw [if_neg heq]
        have hother : (List.filter (fun event : ChildExit =>
            decide (event.child = key')) [⟨key, status⟩]) = [] := by
          simp [Ne.symm heq]
        rw [List.filter_append, List.filter_append, hother, List.append_nil,
          ← List.filter_append]
        exact hold
    · intro key' hkey'
      rw [hchildren]
      by_cases heq : key' = key
      · subst heq
        rw [if_pos rfl]
        exact Or.inr ⟨status, rfl, hmode⟩
      · rw [if_neg heq]
        exact h.published key' hkey'

theorem pollExit (h : kin.Exact limit reaped) (reception : Reception) :
    (kin.pollExit reception).1.Exact limit reaped := by
  unfold Kin.pollExit
  by_cases hrefused : reception = .refused
  · rw [if_pos hrefused]
    exact h
  · rw [if_neg hrefused]
    split
    · exact { h with }
    · rename_i event rest hevents
      have hmoved :
          (rest ++ event :: kin.hand).Perm (kin.events ++ kin.hand) := by
        rw [hevents]
        exact List.perm_middle
      constructor
      · exact h.limited
      · exact h.accounts
      · intro event' hevent'
        exact h.bound event' (hmoved.mem_iff.mp hevent')
      · intro key hkey
        exact (hmoved.filter _).trans (h.sent key hkey)
      · exact h.published

theorem filter_erase {hand : List ChildExit} {event : ChildExit} {key : Key}
    (hne : event.child ≠ key) :
    ((hand.erase event).filter (fun event => event.child = key)) =
      hand.filter (fun event => event.child = key) := by
  induction hand with
  | nil => rfl
  | cons first rest ih =>
      by_cases heq : first = event
      · subst heq
        rw [List.erase_cons_head, List.filter_cons_of_neg (by simpa using hne)]
      · rw [List.erase_cons_tail (by simpa using heq)]
        by_cases hchild : first.child = key
        · rw [List.filter_cons_of_pos (by simpa using hchild),
            List.filter_cons_of_pos (by simpa using hchild), ih]
        · rw [List.filter_cons_of_neg (by simpa using hchild),
            List.filter_cons_of_neg (by simpa using hchild), ih]

theorem sent_erase (h : kin.Exact limit reaped) {event : ChildExit}
    {key : Key} (hne : event.child ≠ key) (hkey : key ∈ kin.actors) :
    (((kin.events ++ kin.hand.erase event)).filter
      (fun event => event.child = key)).Perm
        ((kin.children key).published.map (ChildExit.mk key)) := by
  rw [List.filter_append, filter_erase hne, ← List.filter_append]
  exact h.sent key hkey

theorem bound_erase (h : kin.Exact limit reaped) (event : ChildExit) :
    forall event', event' ∈ kin.events ++ kin.hand.erase event ->
      event'.child < kin.next := by
  intro event' hmem
  apply h.bound event'
  cases List.mem_append.mp hmem with
  | inl hevents => exact List.mem_append_left _ hevents
  | inr hhand => exact List.mem_append_right _ (List.mem_of_mem_erase hhand)

theorem reap (h : kin.Exact limit reaped) (event : ChildExit) :
    (kin.reap event).1.Exact limit
      (if (kin.reap event).2 then event.child :: reaped else reaped) := by
  unfold Kin.reap
  by_cases hmem : event.child ∈ kin.actors
  · rw [if_pos hmem]
    have hactors := (List.nodup_append.mp h.nodup).left
    have hfilter : kin.actors.filter (fun key => key ≠ event.child) =
        kin.actors.erase event.child := by
      rw [hactors.erase_eq_filter]
      apply List.filter_congr
      intro key _
      by_cases heq : key = event.child
      · simp [heq]
      · simp [heq]
    constructor
    · intro n hlimit
      exact Nat.le_trans (List.length_filter_le ..) (h.limited n hlimit)
    · simp only [if_true]
      show (kin.actors.filter _ ++ (event.child :: reaped ++
        (kin.note event.status).cleared)).Perm
          (List.range (kin.note event.status).next)
      have hcleared : (kin.note event.status).cleared = kin.cleared := by
        unfold note
        split <;> rfl
      rw [hfilter, hcleared, next_note, List.cons_append]
      refine (List.perm_middle).trans ?_
      rw [← List.cons_append]
      exact ((List.perm_cons_erase hmem).symm.append_right _).trans h.accounts
    · show forall event', event' ∈ (kin.note event.status).events ++ _ -> _
      rw [events_note, next_note]
      exact h.bound_erase event
    · intro key hkey
      have hkept := List.mem_filter.mp hkey
      have hne : event.child ≠ key := by
        have hne := of_decide_eq_true hkept.right
        exact fun heq => hne heq.symm
      show (List.filter _ ((kin.note event.status).events ++ _)).Perm
        (((kin.note event.status).children key).published.map _)
      rw [events_note, children_note]
      exact h.sent_erase hne hkept.left
    · intro key hkey
      have hkept := List.mem_filter.mp hkey
      show ((kin.note event.status).children key).published = [] ∨ _
      rw [children_note]
      exact h.published key hkept.left
  · rw [if_neg hmem]
    constructor
    · exact h.limited
    · exact h.accounts
    · exact h.bound_erase event
    · intro key hkey
      have hne : event.child ≠ key := by
        intro heq
        rw [heq] at hmem
        exact hmem hkey
      exact h.sent_erase hne hkey
    · exact h.published

/-- The registrations that are left are given up after a wait for all. -/
theorem clear (h : kin.Exact limit reaped) :
    Exact limit reaped
      { kin with actors := [], cleared := kin.cleared ++ kin.actors } where
  limited := fun _ _ => Nat.zero_le _
  accounts := by
    show (reaped ++ (kin.cleared ++ kin.actors)).Perm (List.range kin.next)
    rw [← List.append_assoc]
    exact (List.perm_append_comm).trans h.accounts
  bound := h.bound
  sent := fun _ hkey => by cases hkey
  published := fun _ hkey => by cases hkey

end Exact

end Kin

def KinOp.reaps {α : Type} : KinOp α -> α -> List Key
  | .reap event, true => [event.child]
  | _, _ => []

theorem KinOp.exec_exact {α : Type} (op : KinOp α) (reception : Reception)
    {kin : Kin} {limit : Option Nat} {reaped : List Key}
    (h : kin.Exact limit reaped) :
    (op.exec reception kin).1.Exact limit
      (op.reaps (op.exec reception kin).2 ++ reaped) := by
  cases op with
  | pollExit => exact h.pollExit reception
  | reap event =>
      have hreap := h.reap event
      show (kin.reap event).1.Exact limit
        (reaps (.reap event) (kin.reap event).2 ++ reaped)
      cases hreaped : (kin.reap event).2 with
      | true =>
          rw [hreaped] at hreap
          exact hreap
      | false =>
          rw [hreaped] at hreap
          exact hreap
  | actors => exact h
  | request key shutdown =>
      exact h.advance ((ChildAct.request shutdown).next_advances _)
  | wait key => exact h.wait key
  | clear => exact h.clear
  | subtree => exact h

end Loac

import Loac.Rotation.Ahead

/-!
# The books of wakes

A wake of a reply sets its flag, queues its key if the flag was clear, and wakes
the actor task.  The flag pays for one poll.  How many polls began, how many
wakes set the flag, and which polls a wake has seen, is noted in the books.
-/

namespace Loac

open Interleave

variable {V α : Type} {A : ActorConfig} {w w' : World V}
  {sched sched' : Sched} {key other : Key} {call : NotifyCall} {index : Nat}
  {late : Option Key}

/-- The same wake state, but for the waker of the task. -/
def ReplyWake.Agrees (wake wake' : ReplyWake) : Prop :=
  wake'.ready = wake.ready ∧ wake'.polls = wake.polls ∧
    wake'.sets = wake.sets ∧ wake'.marks = wake.marks

theorem ReplyWake.Agrees.refl (wake : ReplyWake) : wake.Agrees wake :=
  ⟨rfl, rfl, rfl, rfl⟩

namespace Sched

def flag (sched : Sched) (key : Key) : Bool :=
  (sched.wakes key).ready

/-- All wakes that have set a flag, whether they are over or not. -/
def notified (sched : Sched) : List NotifyCall :=
  sched.calls ++ sched.finished

/-- A wake that is over is not followed by a poll of its reply. -/
def Owed (sched : Sched) (key : Key) : Prop :=
  exists call, call ∈ sched.finished ∧ call.key = key ∧
    call.seen = sched.polls key

/-- A wake has set the flag of the reply, and still has to queue its key. -/
def Pushing (sched : Sched) (key : Key) : Prop :=
  exists call, call ∈ sched.calls ∧ call.key = key ∧ call.push = true

/--
Each poll that began is paid for by the first mark or by a wake that set the
flag.  No wake has seen more polls than there are, and after one that has seen
them all the flag is set.
-/
structure Ledger (sched : Sched) : Prop where
  counts : forall key, sched.polls key + (sched.flag key).toNat =
    (sched.wakes key).marks + (sched.wakes key).sets
  marked : forall key, (sched.wakes key).marks <= 1
  seen : forall call, call ∈ sched.notified ->
    call.seen <= sched.polls call.key
  flagged : forall call, call ∈ sched.notified ->
    call.seen = sched.polls call.key -> sched.flag call.key = true
  issued : forall call, call ∈ sched.notified -> call.key < sched.items.next

theorem Ledger.new : Ledger Sched.new where
  counts := fun _ => rfl
  marked := fun _ => Nat.zero_le 1
  seen := fun _ hmem => by cases hmem
  flagged := fun _ hmem => by cases hmem
  issued := fun _ hmem => by cases hmem

theorem wakes_setWake (sched : Sched) (key other : Key) (wake : ReplyWake) :
    (sched.setWake key wake).wakes other =
      if other = key then wake else sched.wakes other := by
  show Function.update sched.wakes key wake other = _
  by_cases heq : other = key
  · rw [if_pos heq, heq, Function.update_self]
  · rw [if_neg heq, Function.update_of_ne heq]

/-!
## Steps
-/

structure SameBooks (sched sched' : Sched) : Prop where
  wakes : forall key, (sched.wakes key).Agrees (sched'.wakes key)
  notified : forall call, call ∈ sched'.notified -> exists before,
    before ∈ sched.notified ∧ before.key = call.key ∧ before.seen = call.seen
  next : sched.items.next <= sched'.items.next

theorem SameBooks.polls (h : SameBooks sched sched') (key : Key) :
    sched'.polls key = sched.polls key :=
  (h.wakes key).right.left

theorem SameBooks.flag (h : SameBooks sched sched') (key : Key) :
    sched'.flag key = sched.flag key :=
  (h.wakes key).left

theorem Ledger.same (h : Ledger sched) (hsame : SameBooks sched sched') :
    Ledger sched' where
  counts := by
    intro key
    rw [hsame.polls, hsame.flag, (hsame.wakes key).right.right.left,
      (hsame.wakes key).right.right.right]
    exact h.counts key
  marked := by
    intro key
    rw [(hsame.wakes key).right.right.right]
    exact h.marked key
  seen := by
    intro call hmem
    rcases hsame.notified call hmem with ⟨before, hbefore, hkey, hseen⟩
    rw [hsame.polls, ← hkey, ← hseen]
    exact h.seen before hbefore
  flagged := by
    intro call hmem
    rcases hsame.notified call hmem with ⟨before, hbefore, hkey, hseen⟩
    rw [hsame.polls, hsame.flag, ← hkey, ← hseen]
    exact h.flagged before hbefore
  issued := by
    intro call hmem
    rcases hsame.notified call hmem with ⟨before, hbefore, hkey, _⟩
    rw [← hkey]
    exact Nat.lt_of_lt_of_le (h.issued before hbefore) hsame.next

structure Notes (sched : Sched) (key : Key) (wake : ReplyWake)
    (more : List NotifyCall) (sched' : Sched) : Prop where
  wakes : sched'.wakes = (sched.setWake key wake).wakes
  notified : forall call, call ∈ sched'.notified ->
    call ∈ sched.notified ∨ call ∈ more
  next : sched.items.next <= sched'.items.next

theorem Notes.polls {wake : ReplyWake} {more : List NotifyCall}
    (h : Notes sched key wake more sched') (other : Key) :
    sched'.polls other = if other = key then wake.polls else sched.polls other := by
  unfold Sched.polls
  rw [h.wakes, wakes_setWake]
  split <;> rfl

theorem Notes.flag {wake : ReplyWake} {more : List NotifyCall}
    (h : Notes sched key wake more sched') (other : Key) :
    sched'.flag other = if other = key then wake.ready else sched.flag other := by
  unfold Sched.flag
  rw [h.wakes, wakes_setWake]
  split <;> rfl

structure Books (sched : Sched) (key : Key) (wake : ReplyWake)
    (more : List NotifyCall) : Prop where
  counts : wake.polls + wake.ready.toNat = wake.marks + wake.sets
  marked : wake.marks <= 1
  seen : forall call, call ∈ sched.notified -> call.key = key ->
    call.seen <= wake.polls ∧ (call.seen = wake.polls -> wake.ready = true)
  more : forall call, call ∈ more ->
    call.key = key ∧ call.key < sched.items.next ∧ call.seen <= wake.polls ∧
      (call.seen = wake.polls -> wake.ready = true)

theorem Ledger.notes {wake : ReplyWake} {more : List NotifyCall}
    (h : Ledger sched) (hbooks : Books sched key wake more)
    (hnotes : Notes sched key wake more sched') : Ledger sched' where
  counts := by
    intro other
    rw [hnotes.polls, hnotes.flag, hnotes.wakes, wakes_setWake]
    by_cases heq : other = key
    · simp only [if_pos heq]
      exact hbooks.counts
    · simp only [if_neg heq]
      exact h.counts other
  marked := by
    intro other
    rw [hnotes.wakes, wakes_setWake]
    by_cases heq : other = key
    · simp only [if_pos heq]
      exact hbooks.marked
    · simp only [if_neg heq]
      exact h.marked other
  seen := by
    intro call hmem
    rw [hnotes.polls]
    by_cases heq : call.key = key
    · rw [if_pos heq]
      cases hnotes.notified call hmem with
      | inl hbefore => exact (hbooks.seen call hbefore heq).left
      | inr hmore => exact (hbooks.more call hmore).right.right.left
    · rw [if_neg heq]
      cases hnotes.notified call hmem with
      | inl hbefore => exact h.seen call hbefore
      | inr hmore => exact absurd (hbooks.more call hmore).left heq
  flagged := by
    intro call hmem
    rw [hnotes.polls, hnotes.flag]
    by_cases heq : call.key = key
    · rw [if_pos heq, if_pos heq]
      cases hnotes.notified call hmem with
      | inl hbefore => exact (hbooks.seen call hbefore heq).right
      | inr hmore => exact (hbooks.more call hmore).right.right.right
    · rw [if_neg heq, if_neg heq]
      cases hnotes.notified call hmem with
      | inl hbefore => exact h.flagged call hbefore
      | inr hmore => exact absurd (hbooks.more call hmore).left heq
  issued := by
    intro call hmem
    cases hnotes.notified call hmem with
    | inl hbefore => exact Nat.lt_of_lt_of_le (h.issued call hbefore) hnotes.next
    | inr hmore =>
        exact Nat.lt_of_lt_of_le (hbooks.more call hmore).right.left hnotes.next

theorem Ledger.books (h : Ledger sched) {wake : ReplyWake}
    (hcounts : wake.polls + wake.ready.toNat = wake.marks + wake.sets)
    (hmarked : wake.marks <= 1) (hpolls : sched.polls key <= wake.polls)
    (hready : wake.polls = sched.polls key -> wake.ready = true) :
    Books sched key wake [] where
  counts := hcounts
  marked := hmarked
  seen := by
    intro call hmem hkey
    have hseen := h.seen call hmem
    rw [hkey] at hseen
    refine ⟨Nat.le_trans hseen hpolls, fun hsame => hready ?_⟩
    exact Nat.le_antisymm (hsame ▸ hseen) hpolls
  more := fun _ hmem => by cases hmem

theorem Ledger.swap (h : Ledger sched) (hkey : key < sched.items.next)
    {wake : ReplyWake} {push : Bool}
    (hcounts : wake.polls + wake.ready.toNat = wake.marks + wake.sets)
    (hmarked : wake.marks <= 1) (hpolls : wake.polls = sched.polls key)
    (hready : wake.ready = true) :
    Books sched key wake
      [{ key := key, push := push, seen := (sched.wakes key).polls }] where
  counts := hcounts
  marked := hmarked
  seen := by
    intro call hmem hcall
    rw [hpolls, ← hcall]
    exact ⟨h.seen call hmem, fun _ => hready⟩
  more := by
    intro call hmem
    rw [List.mem_singleton.mp hmem, hpolls]
    exact ⟨rfl, hkey, Nat.le_refl _, fun _ => hready⟩

theorem notified_append (sched : Sched) (more : List NotifyCall)
    (hmem : call ∈ (sched.calls ++ more) ++ sched.finished) :
    call ∈ sched.notified ∨ call ∈ more := by
  simp only [notified, List.mem_append] at hmem ⊢
  tauto

theorem Ledger.notifySwap (h : Ledger sched) (hkey : key < sched.items.next) :
    Ledger (sched.notifySwap key) := by
  have hcounts := h.counts key
  unfold Sched.flag at hcounts
  unfold Sched.notifySwap
  by_cases hflag : (sched.wakes key).ready = true
  · rw [if_pos hflag]
    have hsame : sched.wakes = (sched.setWake key (sched.wakes key)).wakes := by
      unfold setWake
      rw [Function.update_eq_self]
    exact h.notes (h.swap hkey hcounts (h.marked key) rfl hflag)
      ⟨hsame, fun _ => notified_append sched _, Nat.le_refl _⟩
  · rw [if_neg hflag]
    rw [Bool.eq_false_iff.mpr hflag] at hcounts
    have hbooks : Books sched key
        { sched.wakes key with
          ready := true, sets := (sched.wakes key).sets + 1 }
        [{ key := key, push := true, seen := (sched.wakes key).polls }] := by
      refine h.swap hkey ?_ (h.marked key) rfl rfl
      show sched.polls key + 1 = _ + ((sched.wakes key).sets + 1)
      rw [← Nat.add_assoc, ← hcounts]
      rfl
    exact h.notes hbooks
      ⟨rfl, fun _ => notified_append sched _, Nat.le_refl _⟩

theorem Ledger.notifyPush (h : Ledger sched)
    (hpush : sched.notifyPush index = some sched') : Ledger sched' := by
  unfold Sched.notifyPush at hpush
  split at hpush
  · rename_i key seen hcall
    cases hpush
    refine h.same ⟨fun _ => .refl _, ?_, Nat.le_refl _⟩
    intro call hmem
    cases List.mem_append.mp hmem with
    | inr hfinished => exact ⟨call, List.mem_append_right _ hfinished, rfl, rfl⟩
    | inl hcalls =>
        cases List.mem_or_eq_of_mem_set hcalls with
        | inl hbefore => exact ⟨call, List.mem_append_left _ hbefore, rfl, rfl⟩
        | inr hset =>
            rw [hset]
            exact ⟨_, List.mem_append_left _ (List.mem_of_getElem? hcall),
              rfl, rfl⟩
  · cases hpush

theorem notifyWake_same {woken : Bool}
    (hwake : sched.notifyWake index = some (sched', woken)) :
    SameBooks sched sched' := by
  unfold Sched.notifyWake at hwake
  split at hwake
  · rename_i key seen hcall
    cases hwake
    refine ⟨?_, ?_, Nat.le_refl _⟩
    · intro other
      show ReplyWake.Agrees _ ((sched.setWake key _).wakes other)
      rw [wakes_setWake]
      by_cases heq : other = key
      · rw [if_pos heq, heq]
        exact ⟨rfl, rfl, rfl, rfl⟩
      · rw [if_neg heq]
        exact .refl _
    · intro call hmem
      cases List.mem_append.mp hmem with
      | inl hcalls =>
          exact ⟨call, List.mem_append_left _ (List.mem_of_mem_eraseIdx hcalls),
            rfl, rfl⟩
      | inr hfinished =>
          cases List.mem_cons.mp hfinished with
          | inl heq =>
              rw [heq]
              exact ⟨_, List.mem_append_left _ (List.mem_of_getElem? hcall),
                rfl, rfl⟩
          | inr hbefore =>
              exact ⟨call, List.mem_append_right _ hbefore, rfl, rfl⟩
  · cases hwake

theorem Ledger.markReady (h : Ledger sched)
    (hmarks : (sched.wakes key).marks = 0) : Ledger (sched.markReady key) := by
  have hcounts := h.counts key
  unfold Sched.flag at hcounts
  unfold Sched.markReady
  by_cases hflag : (sched.wakes key).ready = true
  · rw [if_pos hflag]
    exact h
  · rw [if_neg hflag]
    rw [Bool.eq_false_iff.mpr hflag] at hcounts
    have hbooks : Books sched key
        { sched.wakes key with
          ready := true, marks := (sched.wakes key).marks + 1 } [] := by
      refine h.books ?_ ?_ (Nat.le_refl (sched.polls key)) (fun _ => rfl)
      · show sched.polls key + 1 = (sched.wakes key).marks + 1 + _
        rw [Nat.add_right_comm, ← hcounts]
        rfl
      · show (sched.wakes key).marks + 1 <= 1
        rw [hmarks]
    exact h.notes hbooks ⟨rfl, fun _ => Or.inl, Nat.le_refl _⟩

theorem Ledger.takeReady (h : Ledger sched) :
    Ledger (sched.takeReady key).1 := by
  have hcounts := h.counts key
  unfold Sched.flag at hcounts
  unfold Sched.takeReady
  by_cases hflag : (sched.wakes key).ready = true
  · rw [if_pos hflag]
    rw [hflag] at hcounts
    have hbooks : Books sched key
        { sched.wakes key with
          ready := false, polls := (sched.wakes key).polls + 1 } [] := by
      refine h.books hcounts (h.marked key) (Nat.le_succ (sched.polls key)) ?_
      exact fun hsame => absurd hsame (Nat.succ_ne_self _)
    exact h.notes hbooks ⟨rfl, fun _ => Or.inl, Nat.le_refl _⟩
  · rw [if_neg hflag]
    exact h

theorem Ledger.reserve (h : Ledger sched) :
    Ledger (SchedOp.reserve.exec sched).1 := by
  have hbooks : Books sched sched.items.next .new [] := by
    refine ⟨rfl, Nat.zero_le 1, ?_, fun _ hmem => by cases hmem⟩
    intro call hmem hcall
    have hissued := h.issued call hmem
    rw [hcall] at hissued
    exact absurd hissued (Nat.lt_irrefl _)
  exact h.notes hbooks ⟨rfl, fun _ => Or.inl, Nat.le_succ _⟩

end Sched

end Loac

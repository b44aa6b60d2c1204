import Loac.Streaming.Resolution

/-!
# Streamed replies are whole

What the caller received is what was written, as far as it has read.  The end
of the items comes after the last of them, and finishing neither blocks the
handler nor waits for what cannot come.
-/

namespace Loac

open Interleave Interleave.Prog

variable {T F α β : Type} {s s' : Exchange T F} {kept : Prop}
  {c : Config (StreamOp T F) (Exchange T F) (Option (Except CallError F))}

/-!
## Reading
-/

/-- A caller that reads its reply, or does nothing with it. -/
structure Reads (items : Bool) (s : Exchange T F) : Prop where
  finishing : s.finishing = false
  held : s.held = true
  items : items = true -> ItemWatch s

theorem reads_stable {items : Bool} :
    (streamDiscipline T F kept).Stable (Reads items) := by
  intro act s s' hs _ henv h
  have hstep := HandlerAct.handled hs.toCarrying henv
  exact {
    finishing := hstep.finishing.trans h.finishing
    held := hstep.held.trans h.held
    items := fun hwatch => (h.items hwatch).handled hstep }

theorem passedOn_stable : (streamDiscipline T F kept).Stable PassedOn := by
  intro act s s' hs _ henv h
  have hstep := HandlerAct.handled hs.toCarrying henv
  unfold PassedOn
  rw [hstep.received, hstep.heard]
  exact h

theorem handedOver_stable {heard : ItemAnswer T} :
    (streamDiscipline T F kept).Stable (HandedOver kept heard) := by
  intro act s s' hs _ henv h
  have hstep := HandlerAct.handled hs.toCarrying henv
  exact {
    item := by
      rw [hstep.received, hstep.heard]
      exact h.item
    ended := by
      intro hend
      rcases h.ended hend with ⟨hdropped, hwhole⟩
      refine ⟨hstep.out hdropped, ?_⟩
      rw [hstep.received, hwhole]
      rcases hstep.items with ⟨_, hwritten⟩ | ⟨_, hout, _⟩
      · exact hwritten.symm
      · rw [hdropped] at hout
        cases hout
    answered := h.answered }

/-- A read without an item leaves the caller with everything. -/
theorem HandedOver.passedOn {heard : ItemAnswer T} (h : HandedOver kept heard s)
    (hitem : heard.item = none) : PassedOn s := by
  have hreceived := h.item
  rw [hitem, Option.toList_none, List.append_nil] at hreceived
  exact hreceived

/-- A read that gives nothing promises nothing. -/
theorem PassedOn.handedOver {heard : ItemAnswer T} (h : PassedOn s)
    (hitem : heard.item = none) (hend : heard.isEnd = false) (hanswered : kept -> heard ≠ .recv none) :
    HandedOver kept heard s where
  item := by
    rw [hitem, Option.toList_none, List.append_nil]
    exact h
  ended := by
    intro h
    rw [hend] at h
    cases h
  answered := hanswered

theorem HandedOver.recv {poll : ItemPoll T} {answer : Option T}
    (h : HandedOver kept (.poll poll) s)
    (hitem : (ItemAnswer.recv (some answer)).item = (ItemAnswer.poll poll).item)
    (hend : (ItemAnswer.recv (some answer)).isEnd =
      (ItemAnswer.poll poll).isEnd) :
    HandedOver kept (.recv (some answer)) s where
  item := by
    rw [hitem]
    exact h.item
  ended := by
    rw [hend]
    exact h.ended
  answered := by
    intro _ h
    cases h

theorem Reads.entitled {items : Bool} {op : StreamOp T F α}
    (h : Reads items s) (hsuspend : op.isSuspend = true -> items = true)
    (hgives : op.Gives kept s) : Entitled kept op s where
  held := h.held
  affords := by
    intro hfinishing
    rw [h.finishing] at hfinishing
    cases hfinishing
  reads := by
    intro hfinishing
    rw [h.finishing] at hfinishing
    cases hfinishing
  attended := by
    intro hop hasleep
    constructor
    · rcases h.items (hsuspend hop) with htask | hwaker | hempty
      · rw [hasleep] at htask
        cases htask
      · exact Or.inl hwaker
      · exact Or.inr hempty
    · intro hfinishing
      rw [h.finishing] at hfinishing
      cases hfinishing
  gives := hgives

theorem Reads.count {items : Bool} (h : Reads items s) : s.count = s := by
  unfold Exchange.count
  rw [h.finishing]
  rfl

def ItemPoll.isPending : ItemPoll T -> Bool
  | .pending => true
  | _ => false

theorem Exchange.pollRecv_gives (hinv : Regular kept s) (hs : Reads false s)
    (htold : PassedOn s) {poll : ItemPoll T} (hpoll : s.pollRecv = (s', poll)) :
    Reads poll.isPending s' ∧ HandedOver kept (.poll poll) s' := by
  unfold Exchange.pollRecv at hpoll
  split at hpoll
  · cases hpoll
    have hnot : ¬ s.finishing = true := by
      rw [hs.finishing]
      exact Bool.false_ne_true
    unfold Exchange.pop
    rw [if_neg hnot]
    refine ⟨{ hs with items := by intro h; cases h }, ?_⟩
    exact {
      item := by
        rw [htold]
        rfl
      ended := by
        intro h
        cases h
      answered := by
        intro _ h
        cases h }
  · rename_i hempty
    split at hpoll
    · rename_i hdropped
      cases hpoll
      refine ⟨hs, ?_⟩
      have hledger := hinv.ledger
      rw [hinv.keeps hs.finishing hs.held, hempty, List.append_nil,
        List.append_nil] at hledger
      exact {
        item := by
          rw [htold]
          exact (List.append_nil _).symm
        ended := fun _ => ⟨hdropped, hledger⟩
        answered := by
          intro _ h
          cases h }
    · cases hpoll
      have hnone : PassedOn { s with itemWaker := true } := htold
      refine ⟨{ hs with items := fun _ => Or.inr (Or.inl rfl) }, ?_⟩
      exact hnone.handedOver rfl rfl (by intro _ h; cases h)

theorem pollRecv_reads {X : Exchange T F -> Prop}
    (hs : Reads false s ∧ PassedOn s) :
    wp (streamDiscipline T F kept) (perform .pollRecv)
      (fun poll s => Reads poll.isPending s ∧
        HandedOver kept (.poll poll) s) X s := by
  apply wp.op (reads_stable.and passedOn_stable) hs
  intro s hinv hs
  refine ⟨hs.left.entitled (by intro h; cases h) trivial, ?_⟩
  intro input s' poll _ hexec _
  have hresult : s.count.pollRecv = (s', poll) := Option.some.inj hexec
  rw [hs.left.count] at hresult
  exact Exchange.pollRecv_gives hinv hs.left hs.right hresult

theorem suspend_reads {X : Exchange T F -> Prop}
    (hs : Reads true s ∧ PassedOn s) :
    wp (streamDiscipline T F kept) (perform .suspend)
      (fun resumed s => (Reads false s ∧ PassedOn s) ∧
        (resumed = false -> ¬ kept)) X s := by
  apply wp.op (reads_stable.and passedOn_stable) hs
  intro s _ hs
  refine ⟨hs.left.entitled (fun _ => rfl) trivial, ?_⟩
  intro input s' resumed hadmits hexec _
  have hexec : StreamOp.suspend.exec input s = some (s', resumed) := hexec
  have hunwatched : forall task, Reads false { s with task := task } ∧
      PassedOn { s with task := task } :=
    fun _ => ⟨{ hs.left with items := by intro h; cases h }, hs.right⟩
  cases input with
  | resume =>
      rw [StreamOp.exec, hs.left.count] at hexec
      split at hexec
      · cases hexec
        exact ⟨hunwatched false, by intro h; cases h⟩
      · cases hexec
  | cancel =>
      rw [StreamOp.exec, hs.left.count] at hexec
      cases hexec
      exact ⟨hunwatched s.task, fun _ hkept => (hadmits hkept).left rfl⟩
  | _ => cases hexec

theorem recv_reads {X : Exchange T F -> Prop}
    (hs : Reads false s ∧ PassedOn s) :
    wp (streamDiscipline T F kept) StreamReply.recv
      (fun answer s => Reads false s ∧ HandedOver kept (.recv answer) s)
      X s := by
  apply wp.rounds (fun _ s => Reads false s ∧ PassedOn s) hs
  intro _ s hs
  apply wp.seq (pollRecv_reads hs)
  intro poll s hs
  cases poll with
  | item item => exact wp.done ⟨hs.left, hs.right.recv rfl rfl⟩
  | ended => exact wp.done ⟨hs.left, hs.right.recv rfl rfl⟩
  | pending =>
      apply wp.seq (suspend_reads ⟨hs.left, hs.right.passedOn rfl⟩)
      intro resumed s hs
      cases resumed with
      | true => exact wp.again hs.left
      | false =>
          have hnone : HandedOver kept (.recv none) s :=
            hs.left.right.handedOver rfl rfl
              (fun hkept => absurd hkept (hs.right rfl))
          exact wp.done ⟨hs.left.left, hnone⟩

theorem hear_reads {X : Exchange T F -> Prop} {heard : ItemAnswer T}
    {items : Bool} (hs : Reads items s ∧ HandedOver kept heard s) :
    wp (streamDiscipline T F kept) (perform (.hear heard))
      (fun _ s => Reads false s ∧ PassedOn s) X s := by
  apply wp.op (reads_stable.and handedOver_stable) hs
  intro s _ hs
  refine ⟨hs.left.entitled (by intro h; cases h) hs.right, ?_⟩
  intro input s' _ _ hexec _
  cases hexec
  refine ⟨{ hs.left with items := by intro h; cases h }, ?_⟩
  show s.received = (s.heard ++ [heard]).filterMap ItemAnswer.item
  rw [hs.right.item, List.filterMap_append]
  cases hitem : heard.item <;> simp [hitem]

def NextUp (kept : Prop) : CallerAct -> Exchange T F -> Prop
  | .finish, s => Finishes 5 false false s
  | .drop, s => Reads false s ∧ ¬ kept
  | _, s => Reads false s ∧ PassedOn s

theorem next_reads {X : Exchange T F -> Prop}
    (hs : Reads false s ∧ PassedOn s) :
    wp (streamDiscipline T F kept) (perform .next) (NextUp kept) X s := by
  apply wp.op (reads_stable.and passedOn_stable) hs
  intro s hinv hs
  refine ⟨hs.left.entitled (by intro h; cases h) hs.right, ?_⟩
  intro input s' chosen hadmits hexec _
  cases input with
  | act chosen =>
      cases hexec
      cases chosen with
      | recv => exact ⟨{ hs.left with finishing := rfl }, hs.right⟩
      | pollNext => exact ⟨{ hs.left with finishing := rfl }, hs.right⟩
      | drop =>
          exact ⟨{ hs.left with finishing := rfl },
            fun hkept => (hadmits hkept).right rfl⟩
      | finish =>
          have hsteps : s.steps = 0 :=
            hinv.idle (by rw [hs.left.finishing]; rfl)
          have hslots := hinv.slots
          exact {
            finishing := rfl
            held := hs.left.held
            paid := by
              intro _
              show s.steps + 4 * s.items.length + 5 <= finishSteps
              unfold finishSteps
              omega
            items := by
              intro h
              cases h
            final := by
              intro h
              cases h }
  | _ => cases hexec

theorem caller_resolves {X : Exchange T F -> Prop}
    (hs : Reads false s ∧ PassedOn s) :
    wp (streamDiscipline T F kept) caller (StreamReply.Resolved kept) X s := by
  apply wp.rounds (fun _ s => Reads false s ∧ PassedOn s) hs
  intro _ s hs
  apply wp.seq (next_reads hs)
  intro chosen s hs
  cases chosen with
  | recv =>
      apply wp.seq (recv_reads hs)
      intro answer s hs
      apply wp.seq (hear_reads hs)
      intro _ s hs
      exact wp.again hs
  | pollNext =>
      apply wp.seq (pollRecv_reads hs)
      intro poll s hs
      apply wp.seq (hear_reads hs)
      intro _ s hs
      exact wp.again hs
  | finish =>
      apply wp.seq (StreamReply.finish_resolves hs)
      intro result s hs
      exact wp.done hs
  | drop =>
      have hgone : (streamDiscipline T F kept).Stable (fun _ => ¬ kept) :=
        fun _ _ _ _ _ _ h => h
      have hdrop : wp (streamDiscipline T F kept) (perform .dropReply)
          (fun _ _ => ¬ kept) X s := by
        apply wp.op (reads_stable.and hgone) hs
        intro s _ hs
        exact ⟨hs.left.entitled (by intro h; cases h) trivial,
          fun _ _ _ _ _ _ => hs.right⟩
      apply wp.seq hdrop
      intro _ s hs
      exact wp.done hs

/-!
## Runs
-/

abbrev Streams
    (c : Config (StreamOp T F) (Exchange T F) (Option (Except CallError F))) :
    Prop :=
  Machine.Reaches (streaming T F) Machine.Anything ⟨Exchange.new, caller⟩ c

/-- What a finished reply says of the future of the handler. -/
def Tells : Except CallError F -> Handling F -> Prop
  | .ok value, handling => handling = .returned value
  | .error error, handling => error = .responseLost ∧ handling = .dropped

theorem new_reads : Reads false (Exchange.new : Exchange T F) where
  finishing := rfl
  held := rfl
  items := by
    intro h
    cases h

abbrev StreamSafe (kept : Prop) :
    Config (StreamOp T F) (Exchange T F) (Option (Except CallError F)) -> Prop :=
  Safe (streamDiscipline T F kept) (StreamReply.Resolved kept) (fun _ => False)

theorem stream_safe
    (h : Machine.Reaches (streaming T F)
      (streamDiscipline T F kept).Permits ⟨Exchange.new, caller⟩ c) :
    StreamSafe kept c := by
  have hstart : StreamSafe (T := T) (F := F) kept ⟨Exchange.new, caller⟩ :=
    ⟨Exchange.new_sound, Exchange.new, .refl,
      caller_resolves ⟨new_reads, rfl⟩⟩
  refine Safe.run stream_lawful ?_ hstart h
  intro γ op input p s hcancel
  cases hcancel

theorem Streams.safe (h : Streams c) : StreamSafe False c := by
  apply stream_safe
  apply h.weaken
  intro c event _
  exact Discipline.permits_all (fun _ _ _ hkept => hkept.elim)
    (fun _ _ => trivial) c event

theorem Regular.tells {result : Except CallError F} (hs : Regular kept s)
    (h : StreamReply.Resolved kept (some result) s) :
    Tells result s.handling := by
  have hagreed := hs.agreed
  cases result with
  | ok value =>
      have hsent : s.final = .sent value := h
      rw [hsent] at hagreed
      cases hhandling : s.handling with
      | running =>
          rw [hhandling] at hagreed
          cases hagreed
      | returned other =>
          rw [hhandling] at hagreed
          cases hagreed
          rfl
      | dropped =>
          rw [hhandling] at hagreed
          rcases hagreed with hwaits | hclosed
          · cases hwaits
          · cases hclosed
  | error error =>
      refine ⟨h.left, ?_⟩
      have hclosed : s.final = .closed := h.right
      rw [hclosed] at hagreed
      cases hhandling : s.handling with
      | running =>
          rw [hhandling] at hagreed
          cases hagreed
      | returned other =>
          rw [hhandling] at hagreed
          cases hagreed
      | dropped => rfl

end Loac

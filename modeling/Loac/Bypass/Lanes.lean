import Loac.Bypass.Visits

/-!
# Lanes

Each lane, visited in the circle of a turn: the mailbox with its batch, the
replies with their drain, and the exits of the children.
-/

namespace Loac

open Interleave Interleave.Prog

variable {V α β γ : Type} {A : ActorConfig} {w w' : World V}
  {turn : TurnContext} {start lane : ReplyLane} {goal : Option ReplyLane}
  {n bound : Nat} {X : World V × Trace -> Prop} {s : World V × Trace}

/-!
## What a visit leads to
-/

def PassedOver (A : ActorConfig) (turn : TurnContext) (s : World V × Trace) :
    ReplyLane -> Prop
  | .mailbox =>
      turn.receiveMessages = true ->
        hasCapacity A s.1.sched.items.length = true ->
          .mailbox ∈ s.2.touched
  | .reply => s.1.sched.items.length ≠ 0 -> s.2.swept = true
  | .childExit => .childExit ∈ s.2.touched

def Due (start : ReplyLane) (goal : Option ReplyLane) (bound : Nat)
    (s : World V × Trace) : Prop :=
  forall lane, goal = some lane -> start.distance lane < bound ->
    lane ∈ s.2.served

structure Head (A : ActorConfig) (turn : TurnContext) (start : ReplyLane)
    (goal : Option ReplyLane) (bound : Nat) (s : World V × Trace) : Prop where
  cursor : s.1.sched.cursor = start
  lease : s.1.sched.lease = none
  touched : forall other, other ∈ s.2.touched -> start.distance other < bound
  fresh : bound <= start.distance .mailbox -> s.2.messages = 0
  due : forall lane, goal = some lane -> start.distance lane < bound ->
    Tended start lane s.2
  passed : forall other, start.distance other < bound -> PassedOver A turn s other

theorem Head.same {s s' : World V × Trace} (h : Head A turn start goal bound s)
    (hcursor : s'.1.sched.cursor = s.1.sched.cursor)
    (hlease : s'.1.sched.lease = s.1.sched.lease)
    (hitems : s'.1.sched.items = s.1.sched.items) (htrace : s'.2 = s.2) :
    Head A turn start goal bound s' where
  cursor := hcursor.trans h.cursor
  lease := hlease.trans h.lease
  touched := by
    rw [htrace]
    exact h.touched
  fresh := by
    rw [htrace]
    exact h.fresh
  due := by
    intro lane hgoal hbound
    rw [htrace]
    exact h.due lane hgoal hbound
  passed := by
    intro other hbound
    have hold := h.passed other hbound
    cases other with
    | mailbox =>
        unfold PassedOver
        rw [hitems, htrace]
        exact hold
    | reply =>
        unfold PassedOver
        rw [hitems, htrace]
        exact hold
    | childExit =>
        unfold PassedOver
        rw [htrace]
        exact hold

theorem head_stable : (laneDiscipline (V := V) A turn start goal β).Stable
    (Head A turn start goal bound) :=
  unseen_stable fun _ _ hcursor hlease hitems htrace h =>
    h.same hcursor hlease hitems htrace

theorem Head.inside (h : Head A turn start goal (start.distance lane) s) :
    Inside A turn start goal lane s.1.sched.items.length s where
  cursor := h.cursor
  touched := fun other hmem => Nat.le_of_lt (h.touched other hmem)
  fresh := fun hbefore => h.fresh (Nat.le_of_lt hbefore)
  due := h.due
  exits := h.passed .childExit
  mails := h.passed .mailbox

theorem distance_lt_succ {other : ReplyLane}
    (h : start.distance other < start.distance lane + 1) :
    other = lane ∨ start.distance other < start.distance lane := by
  cases Nat.lt_or_eq_of_le (Nat.le_of_lt_succ h) with
  | inl hlt => exact Or.inr hlt
  | inr heq => exact Or.inl (ReplyLane.eq_of_distance heq)

/-- A visit that found nothing lets the turn go on. -/
theorem Inside.next (h : Inside A turn start goal lane n s)
    (hlease : s.1.sched.lease = none)
    (hdue : goal = some lane -> Tended start lane s.2)
    (hpassed : PassedOver A turn s lane)
    (hlength : start.distance .mailbox < start.distance lane ->
      s.1.sched.items.length = n)
    (hswept : start.distance .reply < start.distance lane ->
      PassedOver A turn s .reply) :
    Head A turn start goal (start.distance lane + 1) s where
  cursor := h.cursor
  lease := hlease
  touched := fun other hmem => Nat.lt_succ_of_le (h.touched other hmem)
  fresh := fun hbefore => h.fresh hbefore
  due := by
    intro other hgoal hbefore
    rcases distance_lt_succ hbefore with heq | hlt
    · rw [heq]
      exact hdue (heq ▸ hgoal)
    · exact h.due other hgoal hlt
  passed := by
    intro other hbefore
    rcases distance_lt_succ hbefore with heq | hlt
    · rw [heq]
      exact hpassed
    · cases other with
      | mailbox =>
          intro hreceive hcapacity
          rw [hlength hlt] at hcapacity
          exact h.mails hlt hreceive hcapacity
      | reply => exact hswept hlt
      | childExit => exact h.exits hlt

def Visited (A : ActorConfig) (turn : TurnContext) (start : ReplyLane)
    (goal : Option ReplyLane) (lane : ReplyLane) :
    Visit -> World V × Trace -> Prop
  | .nothing, s => Head A turn start goal (start.distance lane + 1) s
  | .selected _, s => Due start goal (start.distance lane + 1) s
  | .leave none, s =>
      Due start goal (start.distance lane + 1) s ∧
        (s.1.sched.lease ≠ none ∨
          (s.2.wokeItself = true ∧ s.1.sched.cursor = lane.next))
  | .leave (some _), _ => goal = none

theorem Tended.mem_served {other : ReplyLane} {trace : Trace}
    (h : Tended start other trace)
    (hbefore : start.distance other < start.distance lane)
    (hcalm : lane = .mailbox -> trace.refused = false) :
    other ∈ trace.served := by
  rcases h with hserved | ⟨hrefused, hlast | ⟨hstart, hother⟩⟩
  · exact hserved
  · have hbound := ReplyLane.distance_le_two start lane
    omega
  · subst hstart hother
    have hmailbox : lane = .mailbox := by
      revert hbefore
      cases lane <;> decide
    rw [hcalm hmailbox] at hrefused
    cases hrefused

theorem Inside.dueNext (h : Inside A turn start goal lane n s)
    (hdue : goal = some lane -> lane ∈ s.2.served)
    (hcalm : lane = .mailbox -> goal ≠ none -> s.2.refused = false) :
    Due start goal (start.distance lane + 1) s := by
  intro other hgoal hbefore
  rcases distance_lt_succ hbefore with heq | hlt
  · rw [heq]
    exact hdue (heq ▸ hgoal)
  · apply (h.due other hgoal hlt).mem_served hlt
    intro hmailbox
    apply hcalm hmailbox
    rw [hgoal]
    exact Option.some_ne_none other

/--
Where budget was spent the turn has come from the replies or the mailbox, and
so the lane it has come to does not delay by a refusal.
-/
theorem Inside.deferred (h : Inside A turn start goal lane n s)
    (hserved : forall other, other ∈ s.2.served -> other ∈ s.2.touched)
    (hrefused : s.2.refused = true) (hspent : s.2.Spent)
    (hreply : lane ≠ .reply) (hunserved : lane ∉ s.2.served) :
    Deferred start lane s.2 := by
  have hbefore : exists other, other ≠ lane ∧ other ≠ .childExit ∧
      start.distance other <= start.distance lane := by
    rcases hspent with hmem | hmem
    · exact ⟨.reply, hreply.symm, by decide, h.touched _ (hserved _ hmem)⟩
    · refine ⟨.mailbox, ?_, by decide, h.touched _ (hserved _ hmem)⟩
      intro heq
      exact hunserved (heq ▸ hmem)
  rcases hbefore with ⟨other, hne, hchild, hle⟩
  refine ⟨hrefused, ?_⟩
  revert hreply hne hchild hle
  cases start <;> cases lane <;> cases other <;> decide

/-!
## Exits of children
-/

def AsksExit (A : ActorConfig) (turn : TurnContext) (start : ReplyLane)
    (goal : Option ReplyLane) (s : World V × Trace) : Option γ -> Prop
  | some _ => Due start goal (start.distance .childExit + 1) s
  | none => Head A turn start goal (start.distance .childExit + 1) s

theorem childExitLane_visits
    (hs : Head A turn start goal (start.distance .childExit) s ∧
      Waits A turn goal s) :
    wp (laneDiscipline A turn start goal β) childExitLane
      (Visited A turn start goal .childExit) X s := by
  have hpoll : wp (laneDiscipline A turn start goal β) (kin .pollExit)
      (fun event s => AsksExit A turn start goal s event) X s := by
    apply wp.op (head_stable.and waits_stable) hs
    intro s _ hs
    have hinside := hs.left.inside
    constructor
    · constructor
      · intro lane hasks other hmem
        injection hasks with hlane
        rw [← hlane]
        exact hinside.touched other hmem
      · intro hasks
        cases hasks
    · intro input s' event hadmits hexec hinv'
      rcases tracing_exec hexec with ⟨hworld, htrace⟩
      have hsched : s'.1.sched = s.1.sched := Op.sched_exec rfl hworld
      have hinside' := hinside.asks rfl (by rw [hsched]) htrace
      have hevent : (s.1.kin.pollExit input.reception).2 = event := by
        rcases s' with ⟨w', trace'⟩
        cases hworld
        rfl
      cases event with
      | some event =>
          apply hinside'.dueNext
          · intro _
            rw [htrace]
            exact List.mem_cons_self ..
          · intro hlane
            cases hlane
      | none =>
          have htouched : .childExit ∈ s'.2.touched := by
            rw [htrace]
            exact List.mem_cons_self ..
          apply hinside'.next
          · rw [hsched]
            exact hs.left.lease
          · intro hgoal
            by_cases hserved : .childExit ∈ s'.2.served
            · exact Or.inl hserved
            have hunserved : .childExit ∉ s.2.served := by
              intro hmem
              apply hserved
              rw [htrace]
              exact mem_traced_served hmem
            have hevents := hs.right .childExit hgoal hunserved
            have hrefuses : (Op.kin (V := V) .pollExit).refuses input = true :=
              decide_eq_true (Kin.refused_of_pollExit hevents hevent)
            have hrationed := hadmits (by rw [hgoal]; exact Option.some_ne_none _)
            apply Or.inr
            apply hinside'.deferred hinv'.served _ _ (by decide) hserved
            · rw [htrace]
              show (_ || _) = true
              rw [hrefuses, Bool.true_or]
            · rw [htrace]
              exact (hrationed.spends hrefuses).imp mem_traced_served
                mem_traced_served
          · exact htouched
          · intro _
            rw [hsched]
          · intro hbefore hlength
            rw [hsched] at hlength
            rw [htrace]
            exact hs.left.passed .reply hbefore hlength
  have hchild : wp (laneDiscipline A turn start goal β) pollChild
      (fun result s => AsksExit A turn start goal s result) X s := by
    apply wp.seq hpoll
    intro event s hs
    cases event with
    | some event => exact wp.pure hs
    | none => exact wp.pure hs
  apply wp.seq hchild
  intro result s hs
  cases result with
  | some selected => exact wp.pure hs
  | none => exact wp.pure hs

/-!
## The mailbox
-/

structure Batch (A : ActorConfig) (turn : TurnContext) (start : ReplyLane)
    (goal : Option ReplyLane) (dispatched : Nat) (s : World V × Trace) :
    Prop where
  inside : Inside A turn start goal .mailbox 0 s
  lease : s.1.sched.lease = none
  messages : s.2.messages = dispatched
  room : dispatched < A.mailboxDispatchBudget
  first : dispatched = 0 ->
    start.distance .reply < start.distance .mailbox -> PassedOver A turn s .reply
  later : dispatched ≠ 0 -> .mailbox ∈ s.2.served
  calm : dispatched ≠ 0 -> goal ≠ none -> s.2.refused = false

def Stocked (goal : Option ReplyLane) (s : World V × Trace) : Prop :=
  goal = some .mailbox -> .mailbox ∉ s.2.served -> s.1.mail.queue ≠ []

theorem passedReply_same {s s' : World V × Trace}
    (hitems : s'.1.sched.items = s.1.sched.items) (hswept : s'.2.swept = s.2.swept)
    (h : PassedOver A turn s .reply) : PassedOver A turn s' .reply := by
  unfold PassedOver
  rw [hitems, hswept]
  exact h

theorem batch_stable {dispatched : Nat} :
    (laneDiscipline (V := V) A turn start goal β).Stable
      (fun s => Batch A turn start goal dispatched s ∧ Stocked goal s) := by
  apply Discipline.Stable.and
  · apply unseen_stable
    intro s s' hcursor hlease hitems htrace h
    exact {
      inside := h.inside.same hcursor (by rw [htrace]) (by rw [htrace])
        (by rw [htrace]) (by rw [htrace])
      lease := hlease.trans h.lease
      messages := by
        rw [htrace]
        exact h.messages
      room := h.room
      first := fun hzero hbefore =>
        passedReply_same hitems (by rw [htrace]) (h.first hzero hbefore)
      later := by
        rw [htrace]
        exact h.later
      calm := by
        rw [htrace]
        exact h.calm }
  · intro e s s' _ _ henv hs hgoal hunserved
    rcases tracing_env henv with ⟨hworld, htrace⟩
    rw [htrace] at hunserved
    rcases EnvAct.mail_exec hworld with
      ⟨_, _, _, _, _, _, _, hmail, _, ⟨hsame, _⟩ | ⟨_, _, happend, _⟩⟩
    · rw [hmail]
      show _ ≠ []
      rw [hsame]
      exact hs hgoal hunserved
    · rw [hmail]
      show _ ≠ []
      rw [happend]
      simp

def Fetched (A : ActorConfig) (turn : TurnContext) (start : ReplyLane)
    (goal : Option ReplyLane) (dispatched : Nat) :
    Received -> World V × Trace -> Prop
  | .envelope _, s =>
      Inside A turn start goal .mailbox 0 s ∧ .mailbox ∈ s.2.served ∧
        s.2.messages = dispatched + 1 ∧ (goal ≠ none -> s.2.refused = false)
  | .closed, s => Due start goal (start.distance .mailbox + 1) s
  | .pending, s =>
      (dispatched ≠ 0 -> s.1.sched.items.length = 0 ∨ start ≠ .reply ->
        Head A turn start goal (start.distance .mailbox + 1) s) ∧
      (dispatched = 0 ->
        Head A turn start goal (start.distance .mailbox + 1) s) ∧
      (dispatched ≠ 0 -> Due start goal (start.distance .mailbox + 1) s)

theorem distance_reply_mailbox
    (h : start.distance .reply < start.distance .mailbox) : start = .reply := by
  revert h
  cases start <;> decide

theorem pollRecv_fetches {dispatched : Nat}
    (hs : Batch A turn start goal dispatched s ∧ Stocked goal s) :
    wp (laneDiscipline A turn start goal β) (mail (.pollRecv turn))
      (Fetched A turn start goal dispatched) X s := by
  apply wp.op batch_stable hs
  intro s _ hs
  have hinside := hs.left.inside
  constructor
  · constructor
    · intro lane hasks other hmem
      injection hasks with hlane
      rw [← hlane]
      exact hinside.touched other hmem
    · intro _
      rw [hs.left.messages]
      exact hs.left.room
  · intro input s' received hadmits hexec hinv'
    rcases tracing_exec hexec with ⟨hworld, htrace⟩
    have hsched : s'.1.sched = s.1.sched := Op.sched_exec rfl hworld
    have hinside' := hinside.asks rfl (by rw [hsched]) htrace
    have hreceived : (s.1.mail.pollRecv (A.mailbox.getD .unbounded)
        input.reception).2 = received := by
      rcases s' with ⟨w', trace'⟩
      cases hworld
      rfl
    have hrefused : s'.2.refused =
        (decide (input.reception = .refused) || s.2.refused) := by
      rw [htrace]
      show (_ || (traced (.mail (.pollRecv turn)) received s.2).refused) = _
      rw [traced_refused]
      rfl
    -- Nothing was refused before a receiver that answers.
    have hcalm : received ≠ .pending -> goal ≠ none ->
        s'.2.refused = false := by
      intro hanswer hgoal
      rw [← hreceived] at hanswer
      have hregular := Mail.regular_of_pollRecv hanswer
      rw [hrefused, decide_eq_false hregular, Bool.false_or]
      apply eq_false_of_ne_true
      intro hbefore
      exact hregular (of_decide_eq_true ((hadmits hgoal).lasts hbefore rfl))
    cases received with
    | envelope e =>
        refine ⟨hinside', ?_, ?_, hcalm (by simp)⟩
        · rw [htrace]
          exact List.mem_cons_self ..
        · rw [htrace]
          exact congrArg (· + 1) hs.left.messages
    | closed =>
        apply hinside'.dueNext _ (fun _ => hcalm (by simp))
        intro hgoal
        by_contra hunserved
        apply hs.right hgoal
        · intro hmem
          apply hunserved
          rw [htrace]
          exact hmem
        · exact (Mail.pollRecv_closed hreceived).right.left
    | pending =>
        have hattended : goal = some .mailbox ->
            Tended start .mailbox s'.2 := by
          intro hgoal
          by_cases hserved : .mailbox ∈ s'.2.served
          · exact Or.inl hserved
          have hunserved : .mailbox ∉ s.2.served := by
            intro hmem
            apply hserved
            rw [htrace]
            exact hmem
          have hrefuses := decide_eq_true
            (Mail.refused_of_pollRecv (hs.right hgoal hunserved) hreceived)
          have hrationed := hadmits (by rw [hgoal]; exact Option.some_ne_none _)
          apply Or.inr
          apply hinside'.deferred hinv'.served _ _ (by decide) hserved
          · rw [hrefused, hrefuses, Bool.true_or]
          · rw [htrace]
            exact hrationed.spends hrefuses
        have hhead : (start.distance .reply < start.distance .mailbox ->
            PassedOver A turn s' .reply) ->
              Head A turn start goal (start.distance .mailbox + 1) s' := by
          intro hreplies
          refine hinside'.next ?_ hattended ?_ ?_ hreplies
          · rw [hsched]
            exact hs.left.lease
          · intro _ _
            rw [htrace]
            exact List.mem_cons_self ..
          · intro hbefore
            exact absurd hbefore (Nat.lt_irrefl _)
        refine ⟨?_, ?_, ?_⟩
        · intro _ hnone
          apply hhead
          intro hbefore hlength
          rcases hnone with hnone | hother
          · exact absurd hnone hlength
          · exact absurd (distance_reply_mailbox hbefore) hother
        · intro hzero
          apply hhead
          intro hbefore
          exact passedReply_same (by rw [hsched]) (by rw [htrace]; rfl)
            (hs.left.first hzero hbefore)
        · intro hlater other hgoal hbefore
          rw [htrace]
          exact hinside.dueNext (fun _ => hs.left.later hlater)
            (fun _ => hs.left.calm hlater) other hgoal hbefore

theorem fetched_stable {dispatched : Nat} :
    (laneDiscipline (V := V) A turn start goal β).Stable
      (Fetched A turn start goal dispatched .pending) := by
  apply unseen_stable
  intro s s' hcursor hlease hitems htrace h
  refine ⟨?_, ?_, ?_⟩
  · intro hlater hnone
    rw [hitems] at hnone
    exact (h.left hlater hnone).same hcursor hlease hitems htrace
  · intro hzero
    exact (h.right.left hzero).same hcursor hlease hitems htrace
  · intro hlater lane hgoal hbefore
    rw [htrace]
    exact h.right.right hlater lane hgoal hbefore

theorem wp_setCursor {P R : World V × Trace -> Prop} {lane : ReplyLane}
    (hP : (laneDiscipline A turn start goal β).Stable P)
    (hR : forall s s' : World V × Trace, s'.1.sched.cursor = lane ->
      s'.1.sched.lease = s.1.sched.lease ->
      s'.1.sched.items = s.1.sched.items -> s'.2 = s.2 -> P s -> R s')
    (hs : P s) :
    wp (laneDiscipline A turn start goal β) (sched (.setCursor lane))
      (fun _ => R) X s := by
  apply wp.op hP hs
  intro s _ hs
  refine ⟨proper_of_asks rfl s.2, ?_⟩
  intro input s' _ _ hexec _
  rcases tracing_exec hexec with ⟨hworld, htrace⟩
  have hsched : s'.1.sched = { s.1.sched with cursor := lane } := by
    rw [(Op.sched_result hworld).left]
    rfl
  refine hR s s' ?_ ?_ ?_ htrace hs
  · rw [hsched]
  · rw [hsched]
  · rw [hsched]

theorem goal_none {P : ReplyLane -> Prop}
    (h : forall lane, goal = some lane -> true = false ∧ P lane) :
    goal = none := by
  cases goal with
  | none => rfl
  | some lane => cases (h lane rfl).left

theorem mailboxLane_visits
    (hs : Batch A turn start goal 0 s ∧ Stocked goal s) :
    wp (laneDiscipline A turn start goal β) (mailboxLane A turn start)
      (Visited A turn start goal .mailbox) (fun _ => True) s := by
  apply wp.rounds
    (fun dispatched s => Batch A turn start goal dispatched s ∧ Stocked goal s) hs
  intro dispatched s hs
  have hroom := hs.left.room
  apply wp.seq (pollRecv_fetches hs)
  intro received s hs
  cases received with
  | closed => exact wp.done hs
  | pending =>
      have hquiet : (dispatched = 0 ∨ start ≠ .reply) ->
          Head A turn start goal (start.distance .mailbox + 1) s := by
        intro hone
        by_cases hzero : dispatched = 0
        · exact hs.right.left hzero
        · exact hs.left hzero (Or.inr (hone.resolve_left hzero))
      by_cases hboth : dispatched > 0 ∧ start = .reply
      · simp only [if_pos hboth]
        apply wp.seq (hasReplies_reads fetched_stable hs)
        intro replies s hs
        cases replies with
        | true =>
            exact wp.done
              (hs.left.right.right (Nat.pos_iff_ne_zero.mp hboth.left))
        | false =>
            apply wp.done
            apply hs.left.left (Nat.pos_iff_ne_zero.mp hboth.left)
            apply Or.inl
            apply Slots.length_eq_zero_iff.mpr
            simpa using hs.right.symm
      · simp only [if_neg hboth]
        apply wp.done
        apply hquiet
        by_cases hzero : dispatched = 0
        · exact Or.inl hzero
        · exact Or.inr (fun heq =>
            hboth ⟨Nat.pos_iff_ne_zero.mpr hzero, heq⟩)
  | envelope e =>
      have hG : Sweepless (fun trace => .mailbox ∈ trace.served ∧
          trace.messages = dispatched + 1 ∧
            (goal ≠ none -> trace.refused = false)) := fun _ h => h
      have hkeeps : (unsteered V dispatchParts).Keeps
          (laneDiscipline A turn start goal β)
          (fun s => Inside A turn start goal .mailbox 0 s ∧
            .mailbox ∈ s.2.served ∧ s.2.messages = dispatched + 1 ∧
              (goal ≠ none -> s.2.refused = false)) :=
        inside_keeps hG dispatchParts
      have hdispatch : wp (laneDiscipline A turn start goal β) e.dispatch
          (fun _ s => Inside A turn start goal .mailbox 0 s ∧
            .mailbox ∈ s.2.served ∧ s.2.messages = dispatched + 1 ∧
              (goal ≠ none -> s.2.refused = false))
          (fun _ => True) s :=
        wp.mono (fun _ _ hs => hs) (fun _ _ => trivial)
          ((dispatch_calm unsteered_calm e).keeps hkeeps s hs)
      apply wp.seq hdispatch
      intro _ s hs
      apply wp.seq (wp_differs hkeeps.stable hs)
      intro changed s hs
      have hdue := hs.left.left.dueNext (fun _ => hs.left.right.left)
        (fun _ => hs.left.right.right.right)
      cases changed with
      | true =>
          have hnone := goal_none hs.right
          apply wp.seq (wp_setCursor Discipline.Stable.true
            (R := fun _ => goal = none) (fun _ _ _ _ _ _ _ => hnone) trivial)
          intro _ s hs
          exact wp.done hs
      | false =>
          by_cases hbudget : dispatched + 1 = A.mailboxDispatchBudget
          · simp only [if_pos hbudget]
            exact wp.done hdue
          · simp only [if_neg hbudget]
            apply wp.seq (hasDispatchCapacity_reads hkeeps.stable hs.left)
            intro capacity s hs
            cases capacity with
            | false =>
                exact wp.done (hs.left.left.dueNext (fun _ => hs.left.right.left)
                  (fun _ => hs.left.right.right.right))
            | true =>
                have hcapacity := Bool.and_eq_true_iff.mp hs.right.symm
                apply wp.again
                refine ⟨⟨hs.left.left, ?_, hs.left.right.right.left, by omega, ?_,
                  ?_, ?_⟩, ?_⟩
                · exact Option.isNone_iff_eq_none.mp hcapacity.left
                · intro hzero
                  cases hzero
                · exact fun _ => hs.left.right.left
                · exact fun _ => hs.left.right.right.right
                · exact fun _ hunserved => absurd hs.left.right.left hunserved

theorem visitMailbox_visits
    (hs : Head A turn start goal (start.distance .mailbox) s ∧
      Waits A turn goal s) :
    wp (laneDiscipline A turn start goal β) (visit A turn start .mailbox)
      (Visited A turn start goal .mailbox) (fun _ => True) s := by
  apply wp.seq (hasDispatchCapacity_reads (head_stable.and waits_stable) hs)
  intro capacity s hs
  have hhead := hs.left.left
  have hopen : capacity = hasCapacity A s.1.sched.items.length := by
    rw [hs.right, hhead.lease]
    rfl
  by_cases hboth : (turn.receiveMessages && capacity) = true
  · simp only [if_pos hboth]
    apply mailboxLane_visits
    refine ⟨⟨?_, hhead.lease, hhead.fresh (Nat.le_refl _), A.budgetPositive,
      fun _ hbefore => hhead.passed .reply hbefore, ?_, ?_⟩, ?_⟩
    · exact {
        cursor := hhead.cursor
        touched := hhead.inside.touched
        fresh := hhead.inside.fresh
        due := hhead.due
        exits := hhead.inside.exits
        mails := fun hbefore => absurd hbefore (Nat.lt_irrefl _) }
    · exact fun hne => absurd rfl hne
    · exact fun hne => absurd rfl hne
    · intro hgoal hunserved
      exact (hs.left.right .mailbox hgoal hunserved).right.left
  · simp only [if_neg hboth]
    apply wp.pure
    have hshut : turn.receiveMessages = true ->
        hasCapacity A s.1.sched.items.length ≠ true := by
      intro hreceive hcapacity
      apply hboth
      rw [hreceive, hopen, hcapacity]
      rfl
    apply hhead.inside.next hhead.lease
    · intro hgoal
      apply Or.inl
      by_contra hunserved
      have henabled := hs.left.right .mailbox hgoal hunserved
      exact hshut henabled.left henabled.right.right.right
    · intro hreceive hcapacity
      exact absurd hcapacity (hshut hreceive)
    · exact fun _ => rfl
    · exact fun hbefore => hhead.passed .reply hbefore

/-!
## The replies
-/

structure DrainAt (A : ActorConfig) (turn : TurnContext) (start : ReplyLane)
    (goal : Option ReplyLane) (n : Nat) (round : Nat × Bool)
    (s : World V × Trace) : Prop where
  inside : Inside A turn start goal .reply n s
  served : 0 < round.1 -> .reply ∈ s.2.served
  lease : round.2 = false -> s.1.sched.lease = none
  length : round.2 = false -> s.1.sched.items.length = n

theorem DrainAt.same {round : Nat × Bool} {s s' : World V × Trace}
    (h : DrainAt A turn start goal n round s)
    (hinside : Inside A turn start goal .reply n s')
    (hserved : .reply ∈ s.2.served -> .reply ∈ s'.2.served)
    (hlease : s'.1.sched.lease = s.1.sched.lease)
    (hitems : s'.1.sched.items = s.1.sched.items) :
    DrainAt A turn start goal n round s' where
  inside := hinside
  served := fun hpolled => hserved (h.served hpolled)
  lease := fun hnone => hlease.trans (h.lease hnone)
  length := fun hnone => by
    rw [hitems]
    exact h.length hnone

theorem drainAt_stable {round : Nat × Bool} :
    (laneDiscipline (V := V) A turn start goal β).Stable
      (DrainAt A turn start goal n round) := by
  apply unseen_stable
  intro s s' hcursor hlease hitems htrace h
  exact h.same (h.inside.same hcursor (by rw [htrace]) (by rw [htrace])
    (by rw [htrace]) (by rw [htrace])) (by rw [htrace]; exact id) hlease hitems

theorem Op.length_same {op : Op V α} {input : Input V} {a : α}
    (hparts : pollParts.contains op.part = true)
    (h : op.exec A input w = some (w', a)) :
    w'.sched.items.length = w.sched.items.length := by
  cases op with
  | sched op =>
      rw [(Op.sched_result h).left]
      cases op with
      | takeReady key =>
          show (w.sched.takeReady key).1.items.length = _
          unfold Sched.takeReady
          split <;> rfl
      | popReady =>
          show w.sched.popReady.1.items.length = _
          unfold Sched.popReady
          split <;> rfl
      | register key => rfl
      | takeReply key =>
          show (w.sched.takeReply key).1.items.length = _
          unfold Sched.takeReply
          split
          · exact Slots.length_modify ..
          · rfl
      | takeFinal key =>
          show (w.sched.takeFinal key).1.items.length = _
          unfold Sched.takeFinal
          split
          · exact Slots.length_modify ..
          · rfl
      | _ => cases hparts
  | user site =>
      have hschedules := Op.user_schedules h
      revert hschedules
      generalize w'.sched = sched'
      intro hschedules
      cases hschedules with
      | returned key value hsite => exact Slots.length_modify ..
      | _ => rfl
  | _ => rw [Op.sched_exec rfl h]

theorem poll_keeps {m : Nat} {G : Trace -> Prop} (hG : Sweepless G) :
    (unsteered V pollParts).Keeps (laneDiscipline A turn start goal β)
      (fun s => (Inside A turn start goal .reply n s ∧ G s.2) ∧
        s.1.sched.items.length = m) where
  stable := by
    apply (inside_keeps hG pollParts).stable.and
    apply unseen_stable
    intro s s' _ _ hitems _ h
    rw [hitems]
    exact h
  op := by
    intro γ op hop s hinv hs
    have hinside := (inside_keeps (β := β) hG pollParts).op op hop s hinv hs.left
    refine ⟨hinside.left, ?_⟩
    intro input s' a hadmits hexec hinv'
    refine ⟨⟨(hinside.right input s' a hadmits hexec hinv').left, ?_⟩, trivial⟩
    rw [Op.length_same hop.left (tracing_exec hexec).left]
    exact hs.right

theorem popReady_drains {round : Nat × Bool}
    (hs : DrainAt A turn start goal n round s ∧ Waits A turn goal s) :
    wp (laneDiscipline A turn start goal β) (sched .popReady)
      (fun key s => DrainAt A turn start goal n round s ∧
        (key = none -> goal = some .reply -> .reply ∈ s.2.served)) X s := by
  apply wp.op (drainAt_stable.and waits_stable) hs
  intro s _ hs
  have hinside := hs.left.inside
  constructor
  · constructor
    · intro lane hasks other hmem
      injection hasks with hlane
      rw [← hlane]
      exact hinside.touched other hmem
    · intro hasks
      cases hasks
  · intro input s' key _ hexec _
    rcases tracing_exec hexec with ⟨hworld, htrace⟩
    rcases Op.sched_result hworld with ⟨hw', hkey⟩
    have hsched : s'.1.sched = s.1.sched.popReady.1 := by
      rw [hw']
      rfl
    have hsame : s.1.sched.popReady.1.cursor = s.1.sched.cursor ∧
        s.1.sched.popReady.1.lease = s.1.sched.lease ∧
        s.1.sched.popReady.1.items = s.1.sched.items := by
      unfold Sched.popReady
      split <;> exact ⟨rfl, rfl, rfl⟩
    constructor
    · apply hs.left.same
      · exact hinside.asks rfl (by rw [hsched]; exact hsame.left) htrace
      · rw [htrace]
        exact mem_traced_served
      · rw [hsched]
        exact hsame.right.left
      · rw [hsched]
        exact hsame.right.right
    · intro hnone hgoal
      rw [htrace]
      by_contra hunserved
      rcases hs.right .reply hgoal hunserved with ⟨key', _, hqueued, _⟩
      rw [hnone] at hkey
      change s.1.sched.popReady.2 = none at hkey
      unfold Sched.popReady at hkey
      split at hkey
      · rename_i hempty
        rw [hempty] at hqueued
        cases hqueued
      · cases hkey

theorem takeReady_drains {round : Nat × Bool} {key : Key}
    (hs : DrainAt A turn start goal n round s) :
    wp (laneDiscipline A turn start goal β) (sched (.takeReady key))
      (fun ready s => DrainAt A turn start goal n round s ∧
        (ready = true -> .reply ∈ s.2.served)) X s := by
  apply wp.op drainAt_stable hs
  intro s _ hs
  have hinside := hs.inside
  constructor
  · constructor
    · intro lane hasks other hmem
      injection hasks with hlane
      rw [← hlane]
      exact hinside.touched other hmem
    · intro hasks
      cases hasks
  · intro input s' ready _ hexec _
    rcases tracing_exec hexec with ⟨hworld, htrace⟩
    rcases Op.sched_result hworld with ⟨hw', hready⟩
    have hsched : s'.1.sched = (s.1.sched.takeReady key).1 := by
      rw [hw']
      rfl
    have hsame : (s.1.sched.takeReady key).1.cursor = s.1.sched.cursor ∧
        (s.1.sched.takeReady key).1.lease = s.1.sched.lease ∧
        (s.1.sched.takeReady key).1.items = s.1.sched.items := by
      unfold Sched.takeReady
      split <;> exact ⟨rfl, rfl, rfl⟩
    constructor
    · apply hs.same
      · exact hinside.asks rfl (by rw [hsched]; exact hsame.left) htrace
      · rw [htrace]
        exact mem_traced_served
      · rw [hsched]
        exact hsame.right.left
      · rw [hsched]
        exact hsame.right.right
    · intro htaken
      rw [htrace, htaken]
      exact List.mem_cons_self ..

end Loac

import Loac.Course.Turns

/-!
# Shutdowns in order

A hard teardown runs no user code but destructors, and its reason is hard.  A
stop empties the inbox, waits for the replies and for the children, and runs
the stop hook last.
-/

namespace Loac

open Interleave Interleave.Prog

variable {V α β γ : Type} {A : ActorConfig} {w w' : World V}
  {K Y : World V -> Prop} {parts : List Part}

/-- The actor ends with the status, which its stop hook has earned. -/
def Concludes (status : ExitStatus) (w : World V) : Prop :=
  Loose w ∧ Earned status w

theorem concludes_of_hard {status : ExitStatus} (h : ProposesHard status)
    (hw : Loose w) : Concludes status w := by
  refine ⟨hw, ?_⟩
  intro hsoft
  rw [h] at hsoft
  cases hsoft

/-!
## Hard teardown
-/

theorem within_concludes {p : P V ExitStatus}
    (hparts : parts.all Part.loose = true)
    (hp : p.Within (vocabulary V parts) ProposesHard) (hw : Loose w) :
    wp (courseDiscipline V A) p Concludes Loose w := by
  have hkeeps : (vocabulary V parts).Keeps (courseDiscipline V A)
      (fun w => Loose w ∧ True) := loose_keeps hparts Lasts.true
  apply wp.mono _ _ (hp.wp hkeeps ⟨hw, trivial⟩)
  · exact fun _ _ hw => concludes_of_hard hw.right hw.left.left
  · exact fun _ hw => hw.left

theorem killActor_concludes (hw : Loose w) :
    wp (courseDiscipline V A) (killActor A) Concludes Loose w := by
  have hkill : (killActor A).Within (vocabulary V teardownParts)
      ProposesHard := killActor_hard vocabulary_has
  exact within_concludes rfl hkill hw

theorem failActor_concludes (hw : Loose w) :
    wp (courseDiscipline V A) (failActor A) Concludes Loose w := by
  have hfail : (failActor A).Within (vocabulary V teardownParts)
      ProposesHard := failActor_hard vocabulary_mode vocabulary_has
  exact within_concludes rfl hfail hw

theorem killUninitialized_concludes (hw : Loose w) :
    wp (courseDiscipline V A) killUninitialized Concludes Loose w := by
  have hkill : (killUninitialized : P V ExitStatus).Within
      (vocabulary V teardownParts) ProposesHard :=
    killUninitialized_hard vocabulary_has
  exact within_concludes rfl hkill hw

theorem failUninitialized_concludes (hw : Loose w) :
    wp (courseDiscipline V A) failUninitialized Concludes Loose w := by
  have hfail : (failUninitialized : P V ExitStatus).Within
      (vocabulary V teardownParts) ProposesHard :=
    failUninitialized_hard vocabulary_mode vocabulary_has
  exact within_concludes rfl hfail hw

theorem containPanic_concludes (hw : Loose w) :
    wp (courseDiscipline V A) (do
      containPanic
      failActor A) Concludes Loose w := by
  apply wp.seq (containPanic_loose hw)
  intro _ w hw
  exact failActor_concludes hw

/-!
## Discarding the queue
-/

theorem close_shuts (hK : Lasts A [.closes] K) (hw : K w) :
    wp (courseDiscipline V A) ActorInbox.close
      (fun _ w => K w ∧ Shut w) Y w := by
  apply wp.op hK.stable hw
  intro w _ hw
  refine ⟨trivial, ?_⟩
  intro input w' a _ hexec _
  have hexec' : (Op.mail .close).exec A input w = some (w', a) := hexec
  refine ⟨hK.op _ input w w' a rfl hexec' hw, ?_⟩
  cases hexec
  rfl

theorem differs_past (mode : Mode) (hmode : mode ≠ .running)
    (hK : Lasts A [.looks] K) (hw : K w ∧ Past mode w) :
    wp (courseDiscipline V A) (differs mode)
      (fun changed w => (K w ∧ Past mode w) ∧ (changed = true -> Hard w))
      Y w := by
  have hpast : Lasts A [.looks] (Past (V := V) mode) := past_lasts hmode
  apply wp.op (hK.and hpast).stable hw
  intro w _ hw
  refine ⟨trivial, ?_⟩
  intro input w' changed _ hexec _
  have hexec' : (Op.differs mode).exec A input w = some (w', changed) := hexec
  refine ⟨(hK.and hpast).op _ input w w' changed rfl hexec' hw, ?_⟩
  intro hchanged
  cases hexec
  cases hw.right with
  | inl hsame => simp [hsame] at hchanged
  | inr hhard => exact hhard

/-- A discard that finds nothing finds the queue of a closed inbox empty. -/
theorem tryDiscard_spends
    (hK : (vocabulary V (.discards :: answerParts)).Keeps (courseDiscipline V A)
      K) (hshut : forall w, K w -> Shut w) (hw : K w) :
    wp (courseDiscipline V A) ActorInbox.tryDiscard
      (fun discarded w => K w ∧ (discarded = false -> Spent w)) K w := by
  apply wp.bind
  apply wp.op hK.stable hw
  intro w hinv hw
  have hop := hK.op (.mail .tryRecv) rfl w hinv hw
  refine ⟨hop.left, ?_⟩
  intro input w' envelope hadmits hexec hinv'
  have hkept := (hop.right input w' envelope hadmits hexec hinv').left
  have hmail : w'.mail = w.mail.tryRecv.1 ∧ w.mail.tryRecv.2 = envelope := by
    cases hexec
    exact ⟨rfl, rfl⟩
  cases envelope with
  | none =>
      refine wp.pure ⟨hkept, fun _ => ⟨hshut w' hkept, ?_⟩⟩
      rw [hmail.left]
      have hnone := hmail.right
      unfold Mail.tryRecv at hnone ⊢
      split at hnone
      · assumption
      · cases hnone
  | some envelope =>
      have hdiscard : (envelope.discard : P V Unit).Uses
          (vocabulary V (.discards :: answerParts)) :=
        discard_uses (vocabulary_has.mono rfl) envelope
      apply wp.seq (hdiscard.keeps hK w' hkept)
      intro _ w hw
      exact wp.pure ⟨hw, fun h => by cases h⟩

def discardParts : List Part :=
  .closes :: .discards :: .yields :: answerParts

/-- A stop discards the queue, unless a hard mode interrupts it. -/
theorem closeAndDiscard_spends {phase : Phase} (hlax : phase.lax = true)
    (hK : Lasts A discardParts K)
    (hw : At phase w ∧ K w ∧ Past .stopping w) :
    wp (courseDiscipline V A) (closeAndDiscard true .stopping)
      (fun outcome w => (At phase w ∧ K w ∧ Past .stopping w) ∧
        match outcome with
        | .complete => Spent w
        | .modeChanged => Hard w) Loose w := by
  have hallows : discardParts.all phase.allows = true := by
    simp [discardParts, answerParts, Phase.allows, Part.quiet, hlax]
  have hat : Lasts A discardParts (At (V := V) phase) := at_lasts hallows
  have hpast : Lasts A discardParts (Past (V := V) .stopping) :=
    past_lasts (by decide)
  have hstays := hat.and (hK.and hpast)
  apply wp.seq (close_shuts (hstays.mono rfl) hw)
  intro _ w hw
  have hshut : Lasts A discardParts (Shut (V := V)) := shut_lasts
  have hkeeps : (vocabulary V discardParts).Keeps (courseDiscipline V A)
      (fun w => At phase w ∧ (K w ∧ Past .stopping w) ∧ Shut w) :=
    at_keeps hallows ((hK.and hpast).and hshut)
  have hdiscards : (vocabulary V (.discards :: answerParts)).Keeps
      (courseDiscipline V A)
      (fun w => At phase w ∧ (K w ∧ Past .stopping w) ∧ Shut w) :=
    at_keeps (by simp [answerParts, Phase.allows, Part.quiet, hlax])
      (((hK.and hpast).and hshut).mono rfl)
  have hlook : forall {w : World V},
      At phase w ∧ (K w ∧ Past .stopping w) ∧ Shut w ->
        wp (courseDiscipline V A) (differs .stopping)
          (fun changed w => (At phase w ∧ (K w ∧ Past .stopping w) ∧ Shut w) ∧
            (changed = true -> Hard w)) Loose w := by
    intro w hw
    have hlooks : Lasts A [.looks]
        (fun w : World V => At phase w ∧ K w ∧ Shut w) :=
      (hat.and (hK.and hshut)).mono rfl
    apply wp.mono _ (fun _ hY => hY) (differs_past .stopping (by decide)
      hlooks ⟨⟨hw.left, hw.right.left.left, hw.right.right⟩,
        hw.right.left.right⟩)
    intro changed w hw
    exact ⟨⟨hw.left.left.left, ⟨hw.left.left.right.left, hw.left.right⟩,
      hw.left.left.right.right⟩, hw.right⟩
  apply wp.iter
    (fun _ w => At phase w ∧ (K w ∧ Past .stopping w) ∧ Shut w)
    ⟨hw.left.left, hw.left.right, hw.right⟩
  intro dropped w hw
  apply wp.seq (hlook hw)
  intro changed w hw
  cases changed with
  | true => exact wp.done ⟨⟨hw.left.left, hw.left.right.left⟩, hw.right rfl⟩
  | false =>
      have hdiscard := tryDiscard_spends hdiscards
        (fun w hw => hw.right.right) hw.left
      apply wp.seq (wp.mono (fun _ _ hw => hw)
        (fun _ hw => ⟨phase, hlax, hw.left⟩) hdiscard)
      intro discarded w hw
      cases discarded with
      | false =>
          exact wp.done ⟨⟨hw.left.left, hw.left.right.left⟩, hw.right rfl⟩
      | true =>
          apply wp.seq (hlook hw.left)
          intro changed w hw
          cases changed with
          | true =>
              exact wp.done ⟨⟨hw.left.left, hw.left.right.left⟩, hw.right rfl⟩
          | false =>
              by_cases hbudget : dropped + 1 = teardownDropBudget
              · simp only [if_pos hbudget]
                have hwake : (perform .wakeTask : P V Unit).Uses
                    (vocabulary V discardParts) := Has.perform vocabulary_has rfl
                have hyield : (suspend (.discard true) : P V Unit).Uses
                    (vocabulary V discardParts) := Has.perform vocabulary_has rfl
                have hloose : forall w : World V,
                    At phase w ∧ (K w ∧ Past .stopping w) ∧ Shut w ->
                      Loose w := fun _ hw => ⟨phase, hlax, hw.left⟩
                apply wp.seq (wp.mono (fun _ _ hw => hw) hloose
                  (hwake.keeps hkeeps w hw.left))
                intro _ w hw
                apply wp.seq (wp.mono (fun _ _ hw => hw) hloose
                  (hyield.keeps hkeeps w hw))
                intro _ w hw
                exact wp.again hw
              · simp only [if_neg hbudget]
                exact wp.again hw.left

/-!
## The replies that are left
-/

theorem isIdle_tells (hK : Lasts A [.looks] K)
    (hsane : forall w, K w -> Sane A w) (hw : K w) :
    wp (courseDiscipline V A) (isIdle A)
      (fun idle w => K w ∧ (idle = true -> NoReplies w)) Y w := by
  unfold isIdle
  cases hbox : A.mailbox with
  | none => exact wp.pure ⟨hw, fun _ => (hsane w hw).replies hbox⟩
  | some _ =>
      apply wp.op hK.stable hw
      intro w _ hw
      refine ⟨trivial, ?_⟩
      intro input w' idle _ hexec _
      have hexec' : (Op.sched .isEmpty).exec A input w = some (w', idle) :=
        hexec
      refine ⟨hK.op _ input w w' idle rfl hexec' hw, ?_⟩
      intro hidle
      cases hexec
      exact hidle

section Replies

variable {phase : Phase} (hlax : phase.lax = true)
  (hpolls : phase.polls = true) (hK : Lasts A replyParts K)
  (hwaits : Lasts A waitParts K)

include hlax hpolls hK hwaits in
theorem finishRepliesTurn_at (hw : At phase w ∧ K w)
    (hheeded : Heeded Site.finishReplies.Accepts w) :
    wp (courseDiscipline V A) (finishRepliesTurn A)
      (fun _ w => At phase w ∧ K w) (fun w => At phase w ∧ K w) w := by
  have hstays : Lasts A waitParts (fun w : World V => At phase w ∧ K w) :=
    at_waits.and hwaits
  have hlistening : Lasts A replyParts
      (Listening (V := V) Site.finishReplies.Accepts) := listening_lasts rfl
  have hallows : replyParts.all phase.allows = true := by
    simp [replyParts, Phase.allows, Part.quiet, hlax, hpolls]
  have hkeeps := at_keeps (V := V) hallows (hK.and hlistening)
  have hpoll : forall (_ : Unit) (w : World V), (At phase w ∧ K w) ->
      Listening Site.finishReplies.Accepts w ->
        wp (courseDiscipline V A)
          (pollOnce (pollActorReplies A
            { receiveMessages := false, expectedMode := .stopping }) ())
          (Sound.Splits
            (fun _ w => (At phase w ∧ K w) ∧
              Listening Site.finishReplies.Accepts w)
            (fun _ w => At phase w ∧ K w))
          (fun w => At phase w ∧ K w) w := by
    intro _ w hw hlistening
    have hreplies : (pollActorReplies A
        { receiveMessages := false, expectedMode := .stopping } :
          P V (Poll Unit)).Uses (vocabulary V replyParts) :=
      pollActorReplies_uses vocabulary_has _
    apply wp.seq (wp.mono (fun _ _ hw => hw)
      (fun _ hw => ⟨hw.left, hw.right.left⟩)
      (hreplies.keeps hkeeps w ⟨hw.left, hw.right, hlistening⟩))
    intro r w hw
    cases r with
    | none => exact wp.pure ⟨⟨hw.left, hw.right.left⟩, hw.right.right⟩
    | some _ => exact wp.pure ⟨hw.left, hw.right.left⟩
  apply wp.seq (select_waits .finishReplies rfl () (fun _ => hstays)
    (fun _ => hstays) hstays (fun _ w hw => ⟨phase, hlax, hw.left⟩) hpoll hw
    hheeded)
  intro r w hw
  cases r with
  | inl _ => exact wp.pure hw
  | inr _ => exact wp.pure hw

include hlax hpolls hK hwaits in
theorem finishReplies_completes (hsane : forall w, K w -> Sane A w)
    (hw : At phase w ∧ K w) :
    wp (courseDiscipline V A) (finishReplies A)
      (Completes (fun _ w => At phase w ∧ K w ∧ NoReplies w)) Y w := by
  have hstays : Lasts A waitParts (fun w : World V => At phase w ∧ K w) :=
    at_waits.and hwaits
  have hloose : forall w : World V, (At phase w ∧ K w) -> Loose w :=
    fun _ hw => ⟨phase, hlax, hw.left⟩
  apply wp.iter (fun _ w => At phase w ∧ K w) hw
  intro _ w hw
  apply wp.seq (isIdle_tells (hstays.mono rfl) (fun w hw => hsane w hw.right)
    hw)
  intro idle w hw
  cases idle with
  | true => exact wp.done ⟨hw.left.left, hw.left.right, hw.right rfl⟩
  | false =>
      apply wp.seq (mode_waits hstays hw.left)
      intro mode w hw
      cases mode with
      | killing => exact wp.done (hloose w hw.left)
      | failing => exact wp.done (hloose w hw.left)
      | aborting => exact wp.done (hloose w hw.left)
      | exited status => exact wp.done (hloose w hw.left)
      | _ =>
          have hheeded : Heeded Site.finishReplies.Accepts w :=
            Or.inl (congrArg Mode.isHard hw.right)
          apply wp.bind
          apply wp.attempt
          apply wp.mono _ _ (finishRepliesTurn_at hlax hpolls hK hwaits
            hw.left hheeded)
          · intro _ w hw
            exact wp.again hw
          · intro w hw
            apply wp.seq (containPanic_loose (hloose w hw))
            intro _ w hw
            exact wp.done hw

end Replies

/-!
## Children and the stop hook
-/

def Childless (w : World V) : Prop :=
  w.kin.actors = []

theorem childless_lasts : Lasts A (.stop :: waitParts) (Childless (V := V)) where
  env := by
    intro e w w' henv hw
    exact (EnvAct.kin_exec henv).actors.trans hw
  op := by
    intro α op input w w' a hop hexec hw
    have haccounts : op.accounts = false := by
      cases op with
      | kin op => cases op <;> first
          | rfl
          | cases hop
      | _ => rfl
    cases Op.kin_exec haccounts hexec with
    | inl hfollows => exact hfollows.actors.trans hw
    | inr hspawns =>
        cases op with
        | user site =>
            have hscope : site.scope = false := by
              cases site <;> first
                | rfl
                | cases hop
            have hspawns := hspawns.left
            unfold Op.spawns at hspawns
            split at hspawns
            · rename_i heq _
              cases heq
              rw [hscope] at hspawns
              cases hspawns
            · cases hspawns
        | _ => cases hspawns.left

/-- The wait for the children is over when none is registered any more. -/
theorem pollWait_clears (hK : Lasts A [.waits] K) (keys : List Key)
    (hw : K w) :
    wp (courseDiscipline V A) (ChildSet.pollWait keys)
      (Sound.Splits (fun _ => K) (fun _ w => K w ∧ Childless w)) Y w := by
  induction keys generalizing w with
  | nil =>
      apply wp.bind
      apply wp.op hK.stable hw
      intro w _ hw
      refine ⟨trivial, ?_⟩
      intro input w' a _ hexec _
      have hexec' : (Op.kin .clear).exec A input w = some (w', a) := hexec
      refine wp.pure ⟨hK.op _ input w w' a rfl hexec' hw, ?_⟩
      cases hexec
      rfl
  | cons key rest ih =>
      have hwait : Keeps (courseDiscipline V A) K Y (kin (.wait key)) := by
        intro w hw
        apply wp.op hK.stable hw
        intro w _ hw
        refine ⟨trivial, ?_⟩
        intro input w' a _ hexec _
        have hexec' : (Op.kin (.wait key)).exec A input w = some (w', a) :=
          hexec
        exact hK.op _ input w w' a rfl hexec' hw
      apply wp.seq (hwait w hw)
      intro exited w hw
      cases exited with
      | true => exact ih hw
      | false => exact wp.pure hw

theorem finishChildren_clears (hK : Lasts A [.looks, .asks, .waits] K)
    (hkeeps : (vocabulary V [.looks, .asks, .waits]).Keeps
      (courseDiscipline V A) K)
    (shutdown : Shutdown) (keys : Option (List Key)) (hw : K w) :
    wp (courseDiscipline V A) (finishChildren shutdown keys)
      (Sound.Splits (fun _ => K) (fun _ w => K w ∧ Childless w)) K w := by
  have hwait : forall (keys : List Key) (w : World V), K w ->
      wp (courseDiscipline V A)
        (finishChildren.finishChildrenWait (V := V) keys)
        (Sound.Splits (fun _ => K) (fun _ w => K w ∧ Childless w)) K w := by
    intro keys w hw
    apply wp.seq (pollWait_clears (hK.mono rfl) keys hw)
    intro r w hw
    cases r with
    | inl keys' => exact wp.pure hw
    | inr _ => exact wp.pure hw
  cases keys with
  | some keys => exact hwait keys w hw
  | none =>
      have hrequest : (ChildSet.requestAll shutdown : P V Unit).Uses
          (vocabulary V [.looks, .asks, .waits]) :=
        requestAll_uses (vocabulary_has.mono rfl) shutdown
      have hactors : (kin .actors : P V (List Key)).Uses
          (vocabulary V [.looks, .asks, .waits]) :=
        Has.perform vocabulary_has rfl
      apply wp.seq (hrequest.keeps hkeeps w hw)
      intro _ w hw
      apply wp.seq (hactors.keeps hkeeps w hw)
      intro keys w hw
      exact hwait keys w hw

theorem stop_runs (shutdown : Shutdown) : Phase.Runs
    (.stopPoll shutdown.reason)
    [.ending shutdown, .stopping shutdown.reason] (.stopping shutdown.reason)
    (.stopping shutdown.reason) .complete .complete where
  inside := by simp
  continues := by simp [Phase.user, Phase.stopPoll, Phase.stops]
  pending := by simp [Phase.user, Phase.stopPoll, Phase.stops]
  ready := by simp [Phase.user, Phase.stopPoll, Phase.stops]
  panicked := by simp [Phase.user, Phase.stopPoll, Phase.stops]

/-- What the wait for the children and the stop hook rely on. -/
def Depleted (w : World V) : Prop :=
  NoReplies w ∧ Spent w

theorem depleted_lasts (h : parts.contains .places = false) :
    Lasts A parts (Depleted (V := V)) :=
  (noReplies_lasts h).and spent_lasts

def childrenParts : List Part := [.looks, .asks, .waits]

theorem awaitChildren_completes (shutdown : Shutdown)
    (hw : At (.ending shutdown) w ∧ Depleted w) :
    wp (courseDiscipline V A)
      (awaitActorWork .children none (finishChildren shutdown) (return ()))
      (Completes (fun _ w => At (.ending shutdown) w ∧ Depleted w ∧
        Childless w)) Y w := by
  have hlax : (Phase.ending shutdown).lax = true := rfl
  have hat : Lasts A childrenParts (At (V := V) (.ending shutdown)) :=
    at_lasts rfl
  have hlistening : Lasts A childrenParts
      (fun w : World V => Depleted w ∧ Listening Site.children.Accepts w) :=
    (depleted_lasts rfl).and (listening_lasts rfl)
  have hkeeps : (vocabulary V childrenParts).Keeps (courseDiscipline V A)
      (fun w => At (.ending shutdown) w ∧ Depleted w ∧
        Listening Site.children.Accepts w) := at_keeps rfl hlistening
  apply awaitActorWork_completes .children rfl (fun _ h => h) none
    (I := fun _ w => At (.ending shutdown) w ∧ Depleted w)
    (R := fun _ w => At (.ending shutdown) w ∧ Depleted w ∧ Childless w)
  · exact fun _ => at_waits.and (depleted_lasts rfl)
  · exact fun _ => at_waits.and
      ((depleted_lasts rfl).and (childless_lasts.mono rfl))
  · exact fun _ w hw => ⟨.ending shutdown, hlax, hw.left⟩
  · intro keys w hw hlistens
    apply wp.mono _ _ (finishChildren_clears (hat.and hlistening) hkeeps
      shutdown keys ⟨hw.left, hw.right, hlistens⟩)
    · intro r w hw
      cases r with
      | inl _ => exact ⟨⟨hw.left, hw.right.left⟩, hw.right.right⟩
      | inr _ => exact ⟨hw.left.left, hw.left.right.left, hw.right⟩
    · exact fun w hw => ⟨.ending shutdown, hlax, hw.left⟩
  · exact fun _ w hw => wp.pure ⟨.ending shutdown, hlax, hw.left⟩
  · exact fun w hw => wp.pure hw
  · exact fun _ w hw => wp.pure hw
  · exact hw

theorem awaitStop_completes (shutdown : Shutdown)
    (hw : At (.ending shutdown) w ∧ Depleted w ∧ Childless w) :
    wp (courseDiscipline V A)
      (awaitActorWork (.onStop shutdown.reason) ()
        (fun _ => pollUser (.stopPoll shutdown.reason))
        (callUser (.stopDrop shutdown.reason)))
      (Completes (fun _ w => At .complete w ∧ True ∧
        Entry.user (.stopPoll shutdown.reason) .ready ∈ w.life.course)) Y
      w := by
  have hquiet : Lasts A (.stop :: waitParts)
      (fun w : World V => Depleted w ∧ Childless w) :=
    (depleted_lasts rfl).and childless_lasts
  have hlax : forall phase,
      phase ∈ [Phase.ending shutdown, .stopping shutdown.reason] ->
        phase.lax = true := by
    intro phase hmem
    simp only [List.mem_cons, List.not_mem_nil, or_false] at hmem
    rcases hmem with rfl | rfl <;> rfl
  apply awaitUser_completes (.onStop shutdown.reason)
    (.stopDrop shutdown.reason) rfl (fun _ h => h) (stop_runs shutdown) rfl
    hquiet Lasts.true
  · intro _ w hw
    exact ⟨hw.left.left, hw.left.right.right, hw.right⟩
  · rfl
  · intro phase hmem
    exact ⟨phase, hlax phase hmem, fun _ =>
      Phase.retire_of_lax _ (hlax phase hmem)⟩
  · rfl
  · rfl
  · intro w hw
    rcases hw with ⟨phase, hmem, hat⟩
    exact ⟨phase, hlax phase hmem, hat⟩
  · exact ⟨⟨.ending shutdown, by simp, hw.left⟩, hw.right, trivial⟩

theorem gracefulFinish_completes (shutdown : Shutdown)
    (hw : At (.ending shutdown) w ∧ Depleted w) :
    wp (courseDiscipline V A) (gracefulFinish shutdown shutdown.reason)
      (Completes (fun _ w => At .complete w ∧ True ∧
        Entry.user (.stopPoll shutdown.reason) .ready ∈ w.life.course)) Y
      w := by
  have hsettled : Lasts A [.marks] (Depleted (V := V)) := depleted_lasts rfl
  have hkeeps : (vocabulary V [.marks]).Keeps (courseDiscipline V A)
      (fun w => At (.ending shutdown) w ∧ Depleted w) := at_keeps rfl hsettled
  apply wp.bind
  apply wp.op hkeeps.stable hw
  intro w hinv hw
  have hop := hkeeps.op (.reach (.gracefulFinish shutdown)) rfl w hinv hw
  refine ⟨hop.left, ?_⟩
  intro input w' a hadmits hexec hinv'
  have hw' := (hop.right input w' a hadmits hexec hinv').left
  apply wp.seq (awaitChildren_completes shutdown hw')
  intro work w hw
  cases work with
  | complete _ => exact awaitStop_completes shutdown hw
  | killed => exact wp.pure hw
  | panicked => exact wp.pure hw
  | dropPanicked _ => exact wp.pure hw

/-- The way in which an actor ends after its graceful shutdown. -/
theorem terminate_concludes {reason : ExitReason} {work : Work Unit}
    (hw : Completes (fun _ w => At .complete w ∧ True ∧
      Entry.user (.stopPoll reason) .ready ∈ w.life.course) work w) :
    wp (courseDiscipline V A) (terminate A reason work) Concludes Loose w := by
  cases work with
  | complete _ =>
      have hentry : Lasts A [.looks] (fun w : World V =>
          Entry.user (.stopPoll reason) .ready ∈ w.life.course) :=
        course_lasts _
      have hat : Lasts A [.looks] (At (V := V) .complete) := at_lasts rfl
      have hsubtree : wp (courseDiscipline V A)
          (kin .subtree : P V SubtreeStatus)
          (fun _ w => At .complete w ∧
            Entry.user (.stopPoll reason) .ready ∈ w.life.course) Loose w := by
        apply wp.op (hat.and hentry).stable ⟨hw.left, hw.right.right⟩
        intro w _ hw
        refine ⟨trivial, ?_⟩
        intro input w' a _ hexec _
        have hexec' : (Op.kin .subtree).exec A input w = some (w', a) := hexec
        exact (hat.and hentry).op _ input w w' a rfl hexec' hw
      apply wp.seq hsubtree
      intro subtree w hw
      refine wp.pure ⟨⟨.complete, rfl, hw.left⟩, ?_⟩
      intro _
      rw [ExitStatus.reason_new]
      exact hw.right
  | killed => exact killActor_concludes hw
  | panicked => exact failActor_concludes hw
  | dropPanicked _ => exact failActor_concludes hw

/-!
## Stop
-/

theorem stopReplies_concludes
    (hw : At (.ending .stop) w ∧ Sane A w ∧ Spent w) :
    wp (courseDiscipline V A) (stopReplies A) Concludes Loose w := by
  have hK : Lasts A replyParts (fun w : World V => Sane A w ∧ Spent w) :=
    (sane_lasts rfl (fun _ => rfl)).and spent_lasts
  have hwaits : Lasts A waitParts (fun w : World V => Sane A w ∧ Spent w) :=
    (sane_lasts rfl (fun _ => rfl)).and spent_lasts
  apply wp.seq (finishReplies_completes rfl rfl hK hwaits
    (fun _ hw => hw.left) hw)
  intro work w hw
  cases work with
  | complete _ =>
      apply wp.seq (gracefulFinish_completes .stop
        ⟨hw.left, hw.right.right, hw.right.left.right⟩)
      intro work w hw
      exact terminate_concludes hw
  | killed => exact killActor_concludes hw
  | panicked => exact failActor_concludes hw
  | dropPanicked _ => exact failActor_concludes hw

theorem stopActor_concludes
    (hw : At (.ending .stop) w ∧ Sane A w ∧ Past .stopping w) :
    wp (courseDiscipline V A) (stopActor A) Concludes Loose w := by
  have hsane : Lasts A discardParts (Sane (V := V) A) :=
    sane_lasts rfl (fun _ => rfl)
  apply wp.seq (closeAndDiscard_spends rfl hsane hw)
  intro outcome w hw
  cases outcome with
  | complete => exact stopReplies_concludes ⟨hw.left.left, hw.left.right.left,
      hw.right⟩
  | modeChanged =>
      have hat : Lasts A waitParts (fun w : World V =>
          At (.ending .stop) w ∧ Sane A w ∧ Hard w) :=
        at_waits.and ((sane_lasts rfl (fun _ => rfl)).and hard_lasts)
      apply wp.seq (mode_waits hat
        ⟨hw.left.left, hw.left.right.left, hw.right⟩)
      intro mode w hw
      rcases hw with ⟨⟨hat, hsane, hhard⟩, hmode⟩
      have hloose : Loose w := ⟨_, rfl, hat⟩
      unfold Hard at hhard
      rw [hmode] at hhard
      cases mode with
      | killing => exact killActor_concludes hloose
      | failing => exact failActor_concludes hloose
      | aborting => exact absurd hmode hsane.mode
      | exited status =>
          have hopen := hat.unexited
          rw [hmode] at hopen
          cases hopen
      | running => cases hhard
      | draining => cases hhard
      | stopping => cases hhard

end Loac

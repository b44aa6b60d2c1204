import Loac.Directed.Discipline

/-!
# Steps between a look and a suspension

Once a turn has looked at a lane and found nothing, what comes in later wakes the
task.  That is true in particular of the steps that others take before the turn
is suspended.
-/

namespace Loac

open Interleave Interleave.Prog

variable {V α β γ : Type} {A : ActorConfig} {w w' : World V} {key : Key}
  {late : Option Key} {sched sched' : Sched}

/-!
## The environment
-/

/-- What a step of the environment does to the books. -/
inductive EnvAct.Tells (w w' : World V) : EnvAct -> Prop where
  | swap (key : Key) : key < w.sched.items.next ->
      w' = { w with sched := w.sched.notifySwap key } ->
      Tells w w' (.notifySwap key)
  | push (index : Nat) (sched : Sched) :
      w.sched.notifyPush index = some sched ->
      w' = { w with sched := sched } -> Tells w w' (.notifyPush index)
  | wake (index : Nat) (sched : Sched) (woken : Bool) :
      w.sched.notifyWake index = some (sched, woken) ->
      w' = { w with sched := sched }.wakeIf woken ->
      Tells w w' (.notifyWake index)
  | other (e : EnvAct) : w'.sched = w.sched -> Tells w w' e

theorem EnvAct.tells {e : EnvAct} (h : e.exec A w = some w') :
    EnvAct.Tells w w' e := by
  cases e with
  | notifySwap key =>
      unfold EnvAct.exec at h
      dsimp only at h
      split at h
      · rename_i hkey
        exact .swap key hkey (Option.some.inj h).symm
      · cases h
  | notifyPush index =>
      rcases Option.map_eq_some_iff.mp h with ⟨sched, hpush, hw'⟩
      exact .push index sched hpush hw'.symm
  | notifyWake index =>
      rcases Option.map_eq_some_iff.mp h with ⟨⟨sched, woken⟩, hwake, hw'⟩
      exact .wake index sched woken hwake hw'.symm
  | _ =>
      apply EnvAct.Tells.other
      grind [EnvAct.exec, World.transact, World.wakeIf, Option.map_eq_some_iff]

theorem EnvAct.asleep {e : EnvAct} (h : e.exec A w = some w')
    (hasleep : w'.task = false) : w.task = false := by
  cases htask : w.task with
  | false => rfl
  | true =>
      rw [(EnvAct.heard h).task_kept htask] at hasleep
      cases hasleep

theorem Sched.Ledger.env {e : EnvAct} (hledger : w.sched.Ledger)
    (h : e.exec A w = some w') : w'.sched.Ledger := by
  cases EnvAct.tells h with
  | swap key hkey hw' =>
      rw [hw']
      exact hledger.notifySwap hkey
  | push index sched hpush hw' =>
      rw [hw']
      exact hledger.notifyPush hpush
  | wake index sched woken hwake hw' =>
      rw [hw']
      exact hledger.same (Sched.notifyWake_same hwake)
  | other _ hsched =>
      rw [hsched]
      exact hledger

theorem EnvAct.told {e : EnvAct} (h : e.exec A w = some w') (key : Key) :
    w.sched.Told w'.sched key := by
  cases EnvAct.tells h with
  | swap other _ hw' =>
      rw [hw']
      exact w.sched.notifySwap_told other key
  | push index sched hpush hw' =>
      rw [hw']
      exact Sched.notifyPush_told hpush key
  | wake index sched woken hwake hw' =>
      rw [hw']
      exact Sched.notifyWake_told hwake key
  | other _ hsched =>
      rw [hsched]
      exact .refl _ key

theorem Sched.finished_notifySwap (sched : Sched) (key : Key) :
    (sched.notifySwap key).finished = sched.finished := by
  unfold Sched.notifySwap
  split <;> rfl

/-- The wakes that are over before a step, and perhaps one more. -/
theorem EnvAct.owed {e : EnvAct} (h : e.exec A w = some w')
    (howed : w'.sched.Owed key) :
    w.sched.Owed key ∨ exists index, exists call, e = .notifyWake index ∧
      w.sched.calls[index]? = some call ∧ call.key = key ∧
        call.seen = w.sched.polls key := by
  have hpolls := (EnvAct.told h key).polls
  cases EnvAct.tells h with
  | swap other _ hw' =>
      subst hw'
      left
      unfold Sched.Owed at howed ⊢
      rw [hpolls, Sched.finished_notifySwap] at howed
      exact howed
  | push index sched hpush hw' =>
      subst hw'
      left
      unfold Sched.notifyPush at hpush
      split at hpush
      · cases hpush
        exact howed
      · cases hpush
  | wake index sched woken hwake hw' =>
      subst hw'
      rcases Sched.notifyWake_owed hwake howed with hbefore | ⟨call, hcall⟩
      · exact Or.inl hbefore
      · exact Or.inr ⟨index, call, rfl, hcall⟩
  | other _ hsched =>
      rw [hsched] at howed
      exact Or.inl howed

theorem Booked.env {e : EnvAct} (h : Booked late w.sched)
    (hledger : w.sched.Ledger) (htolerates : DirectedTolerates e w)
    (hexec : e.exec A w = some w') : Booked late w'.sched := by
  apply h.told (EnvAct.told hexec)
  intro key hlive howed
  rcases EnvAct.owed hexec howed with hbefore | hcall
  · exact h.filed key hlive (Or.inl hbefore)
  · rcases hcall with ⟨index, call, he, hcall, hkey, hseen⟩
    subst he hkey
    have hflag := hledger.flagged call (List.mem_append_left _
      (List.mem_of_getElem? hcall)) hseen
    exact ⟨hflag, (htolerates call hcall hlive).left⟩

theorem EnvAct.rouses {index : Nat} {call : NotifyCall}
    (hexec : EnvAct.exec A (.notifyWake index) w = some w')
    (hcall : w.sched.calls[index]? = some call)
    (hwaker : (w.sched.wakes call.key).task = true) : w'.task = true := by
  rcases Option.map_eq_some_iff.mp hexec with ⟨⟨sched, woken⟩, hwake, hw'⟩
  have hwoken : woken = (w.sched.wakes call.key).task := by
    unfold Sched.notifyWake at hwake
    rw [hcall] at hwake
    rcases call with ⟨key, push, seen⟩
    cases push with
    | true => cases hwake
    | false =>
        cases hwake
        rfl
  subst hw'
  show (w.task || woken) = true
  rw [hwoken, hwaker]
  exact Bool.or_true w.task

/-- A wake that is over is followed by a poll, or the task is awake. -/
theorem Sated.env {e : EnvAct} (h : Sated key w)
    (htolerates : DirectedTolerates e w) (hexec : e.exec A w = some w') :
    Sated key w' := by
  intro hlive hasleep
  have htold := EnvAct.told hexec key
  have hsleeps := EnvAct.asleep hexec hasleep
  rw [htold.live] at hlive
  rcases h hlive hsleeps with ⟨hpolls, hnever⟩
  refine ⟨?_, fun howed => ?_⟩
  · rw [htold.polls]
    exact hpolls
  · rcases EnvAct.owed hexec howed with hbefore | hcall
    · exact hnever hbefore
    · rcases hcall with ⟨index, call, he, hcall, hkey, _⟩
      subst he hkey
      rcases (htolerates call hcall hlive).right with
        hwaker | htask | hfirst | howed
      · rw [EnvAct.rouses hexec hcall hwaker] at hasleep
        cases hasleep
      · rw [hsleeps] at htask
        cases htask
      · rw [hfirst] at hpolls
        exact Nat.lt_irrefl _ hpolls
      · exact hnever howed

theorem InboxSeen.env {e : EnvAct} (h : InboxSeen A w)
    (hexec : e.exec A w = some w') : InboxSeen A w' := by
  intro hsleeps
  have hbefore := h (EnvAct.asleep hexec hsleeps)
  rw [EnvAct.items_exec hexec]
  refine hbefore.imp_right fun hseen => ?_
  rcases hseen with ⟨hqueue, hwaker⟩
  cases e with
  | reserve =>
      unfold EnvAct.exec at hexec
      dsimp only at hexec
      split at hexec
      · rcases Option.map_eq_some_iff.mp hexec with ⟨mail, hreserve, hw'⟩
        subst hw'
        unfold Mail.reserve at hreserve
        split at hreserve
        · cases hreserve
          exact ⟨hqueue, hwaker⟩
        · cases hreserve
      · cases hexec
  | release =>
      rcases Option.map_eq_some_iff.mp hexec with ⟨mail, hrelease, hw'⟩
      subst hw'
      have hmail : mail.queue = w.mail.queue := by
        unfold Mail.release at hrelease
        split at hrelease
        · cases hrelease
        · cases hrelease
          rfl
      refine ⟨hmail.trans hqueue, ?_⟩
      have hwoken := (Bool.or_eq_false_iff.mp hsleeps).right
      rw [hwaker] at hwoken
      simpa [World.wakeIf] using hwoken
  | admitEnvelope kind =>
      rcases Option.map_eq_some_iff.mp hexec with ⟨mail, hadmit, hw'⟩
      subst hw'
      have hwoken := (Bool.or_eq_false_iff.mp hsleeps).right
      rw [hwaker] at hwoken
      have hkept : mail.waker = true := by simpa using hwoken
      unfold Mail.admitEnvelope at hadmit
      split at hadmit
      · cases hadmit
      · split at hadmit
        · split at hadmit
          · cases hadmit
          · cases hadmit
            cases hkept
        · cases hadmit
          exact ⟨hqueue, hkept⟩
  | refuse =>
      unfold EnvAct.exec at hexec
      dsimp only at hexec
      split at hexec
      · cases hexec
        exact ⟨hqueue, hwaker⟩
      · cases hexec
  | abandon id =>
      cases hexec
      exact ⟨hqueue, hwaker⟩
  | _ =>
      have hmail : w'.mail = w.mail := by
        grind [EnvAct.exec, World.transact, World.wakeIf,
          Option.map_eq_some_iff]
      rw [hmail]
      exact ⟨hqueue, hwaker⟩

theorem ExitsSeen.env {e : EnvAct} (h : ExitsSeen w)
    (hexec : e.exec A w = some w') : ExitsSeen w' := by
  intro hsleeps
  have hbefore := h (EnvAct.asleep hexec hsleeps)
  rcases hbefore with ⟨hevents, hwaker⟩
  cases e with
  | child key act =>
      unfold EnvAct.exec at hexec
      dsimp only at hexec
      split at hexec
      · cases hexec
        show (w.kin.advance key _).1.events = [] ∧
          (w.kin.advance key _).1.waker = true
        unfold Kin.advance
        split
        · exact ⟨hevents, hwaker⟩
        · split <;> exact ⟨hevents, hwaker⟩
      · cases hexec
  | childPublish key =>
      unfold EnvAct.exec at hexec
      dsimp only at hexec
      split at hexec
      · rcases Option.map_eq_some_iff.mp hexec with ⟨kin, _, hw'⟩
        subst hw'
        have hwoken := (Bool.or_eq_false_iff.mp hsleeps).right
        rw [hwaker] at hwoken
        cases hwoken
      · cases hexec
  | _ =>
      have hkin : w'.kin = w.kin := by
        grind [EnvAct.exec, World.transact, World.wakeIf,
          Option.map_eq_some_iff]
      rw [hkin]
      exact ⟨hevents, hwaker⟩

theorem AllSeen.env {e : EnvAct} (h : AllSeen A w)
    (htolerates : DirectedTolerates e w) (hexec : e.exec A w = some w') :
    AllSeen A w' := by
  have hlease := EnvAct.lease_exec hexec
  constructor
  · exact fun hfree => (h.inbox (hlease.symm.trans hfree)).env hexec
  · exact fun hfree => (h.exits (hlease.symm.trans hfree)).env hexec
  · exact fun hfree key =>
      (h.sated (hlease.symm.trans hfree) key).env htolerates hexec
  · exact fun key hheld =>
      (h.holder key (hlease.symm.trans hheld)).env htolerates hexec

/-!
## Operations
-/

/-- The operation makes an entry in the books. -/
def Op.enters : Op V α -> Bool
  | .sched .reserve => true
  | .sched (.markReady _) => true
  | .sched (.takeReady _) => true
  | _ => false

/-- The operation changes the queued keys. -/
def Op.rekeys : Op V α -> Bool
  | .sched .popReady => true
  | .sched (.markReady _) => true
  | _ => false

structure Sched.Same (sched sched' : Sched) : Prop where
  wakes : forall key, (sched.wakes key).Agrees (sched'.wakes key)
  calls : sched'.calls = sched.calls
  finished : sched'.finished = sched.finished
  next : sched.items.next <= sched'.items.next

namespace Sched.Same

theorem of_rest (hwakes : sched'.wakes = sched.wakes)
    (hcalls : sched'.calls = sched.calls)
    (hfinished : sched'.finished = sched.finished)
    (hnext : sched.items.next <= sched'.items.next) : Same sched sched' := by
  refine ⟨fun key => ?_, hcalls, hfinished, hnext⟩
  rw [hwakes]
  exact .refl _

theorem refl (sched : Sched) : Same sched sched :=
  of_rest rfl rfl rfl (Nat.le_refl _)

theorem books (h : Same sched sched') : SameBooks sched sched' where
  wakes := h.wakes
  notified := by
    intro call hmem
    unfold notified at hmem
    rw [h.calls, h.finished] at hmem
    exact ⟨call, hmem, rfl, rfl⟩
  next := h.next

theorem owed (h : Same sched sched') (key : Key) :
    sched'.Owed key <-> sched.Owed key := by
  unfold Owed
  rw [h.finished, h.books.polls]

theorem pushing (h : Same sched sched') (key : Key) :
    sched'.Pushing key <-> sched.Pushing key := by
  unfold Pushing
  rw [h.calls]

end Sched.Same

theorem SchedOp.same_exec {op : SchedOp α}
    (hop : (Op.sched op : Op V α).enters = false) (sched : Sched) :
    sched.Same (op.exec sched).1 := by
  cases op with
  | register key =>
      refine ⟨?_, rfl, rfl, Nat.le_refl _⟩
      intro other
      show ReplyWake.Agrees _ ((sched.setWake key _).wakes other)
      rw [Sched.wakes_setWake]
      by_cases heq : other = key
      · rw [if_pos heq, heq]
        exact ⟨rfl, rfl, rfl, rfl⟩
      · rw [if_neg heq]
        exact .refl _
  | place key future =>
      refine .of_rest rfl rfl rfl (Nat.le_of_eq ?_)
      exact (Slots.next_place _ _ _).symm
  | popReady =>
      show sched.Same sched.popReady.1
      unfold Sched.popReady
      split <;> exact .of_rest rfl rfl rfl (Nat.le_refl _)
  | remove key =>
      refine .of_rest rfl rfl rfl (Nat.le_of_eq ?_)
      exact (Slots.next_remove _ _).symm
  | drain =>
      show sched.Same sched.drain.1
      unfold Sched.drain
      split
      · exact .refl sched
      · refine .of_rest rfl rfl rfl (Nat.le_of_eq ?_)
        exact (Slots.next_remove _ _).symm
  | takeReply key =>
      show sched.Same (sched.takeReply key).1
      unfold Sched.takeReply
      split
      · refine .of_rest rfl rfl rfl (Nat.le_of_eq ?_)
        exact (Slots.next_modify _ _ _).symm
      · exact .refl sched
  | takeFinal key =>
      show sched.Same (sched.takeFinal key).1
      unfold Sched.takeFinal
      split
      · refine .of_rest rfl rfl rfl (Nat.le_of_eq ?_)
        exact (Slots.next_modify _ _ _).symm
      · exact .refl sched
  | _ => first
      | exact .of_rest rfl rfl rfl (Nat.le_refl _)
      | cases hop

theorem Op.same_exec {op : Op V α} {input : Input V} {a : α}
    (hop : op.enters = false) (h : op.exec A input w = some (w', a)) :
    w.sched.Same w'.sched := by
  cases op with
  | sched op =>
      rw [(Op.sched_result h).left]
      exact SchedOp.same_exec hop w.sched
  | user site =>
      have hschedules := Op.user_schedules h
      revert hschedules
      generalize w'.sched = sched'
      intro hschedules
      cases hschedules with
      | returned key value _ =>
          refine .of_rest rfl rfl rfl (Nat.le_of_eq ?_)
          exact (Slots.next_modify _ _ _).symm
      | _ => exact .of_rest rfl rfl rfl (Nat.le_refl _)
  | _ =>
      rw [Op.sched_exec rfl h]
      exact .refl _

theorem Op.keys_exec {op : Op V α} {input : Input V} {a : α}
    (hop : op.rekeys = false) (h : op.exec A input w = some (w', a)) :
    w'.sched.ready = w.sched.ready := by
  cases op with
  | sched op =>
      rw [(Op.sched_result h).left]
      cases op with
      | takeReady key =>
          show (w.sched.takeReady key).1.ready = _
          unfold Sched.takeReady
          split <;> rfl
      | drain =>
          show w.sched.drain.1.ready = _
          unfold Sched.drain
          split <;> rfl
      | takeReply key =>
          show (w.sched.takeReply key).1.ready = _
          unfold Sched.takeReply
          split <;> rfl
      | takeFinal key =>
          show (w.sched.takeFinal key).1.ready = _
          unfold Sched.takeFinal
          split <;> rfl
      | _ => first
          | rfl
          | cases hop
  | user site =>
      have hschedules := Op.user_schedules h
      revert hschedules
      generalize w'.sched = sched'
      intro hschedules
      cases hschedules <;> rfl
  | _ => rw [Op.sched_exec rfl h]

theorem Op.asleep {op : Op V α} {input : Input V} {a : α}
    (hop : op.suspends = false) (h : op.exec A input w = some (w', a))
    (hasleep : w'.task = false) : w.task = false := by
  cases op with
  | suspend site => cases hop
  | user site =>
      cases input with
      | user act =>
          cases act with
          | returns value =>
              cases h
              change (w.recordReturn site value).task = false at hasleep
              rw [World.task_recordReturn] at hasleep
              exact hasleep
          | _ => grind [Op.exec, World.userStep]
      | _ => cases h
  | spawn =>
      rw [Op.spawn_exec h] at hasleep
      exact hasleep
  | _ => grind [Op.exec, World.wakeIf, World.transact, Bool.or_eq_false_iff]

theorem Sched.Ledger.exec {op : Op V α} {input : Input V} {a : α}
    (hledger : w.sched.Ledger) (hdemands : DirectedDemands A op w)
    (h : op.exec A input w = some (w', a)) : w'.sched.Ledger := by
  cases henters : op.enters with
  | false => exact hledger.same (Op.same_exec henters h).books
  | true =>
      cases op with
      | sched op =>
          rw [(Op.sched_result h).left]
          cases op with
          | reserve => exact hledger.reserve
          | markReady key => exact hledger.markReady hdemands
          | takeReady key => exact hledger.takeReady
          | _ => cases henters
      | _ => cases henters

theorem directed_lawful : (directed V A).Lawful where
  actor := fun _ _ _ _ _ hledger hdemands _ hexec =>
    hledger.exec hdemands hexec
  env := fun _ _ _ hledger _ hexec => Sched.Ledger.env hledger hexec

/-!
## What operations keep
-/

theorem Sched.reserve_wakes (sched : Sched) (hlive : sched.isLive key = true) :
    (SchedOp.reserve.exec sched).1.wakes key = sched.wakes key := by
  show (sched.setWake sched.items.next .new).wakes key = _
  rw [Sched.wakes_setWake, if_neg]
  intro heq
  unfold Sched.isLive at hlive
  rw [heq, Slots.get?_of_next_le (Nat.le_refl _)] at hlive
  cases hlive

theorem Sched.Ledger.taken (hledger : sched.Ledger)
    (hflag : sched.flag key = true) :
    (sched.takeReady key).1.flag key = false ∧
      0 < (sched.takeReady key).1.polls key ∧
      ¬ (sched.takeReady key).1.Owed key := by
  have htaken : (sched.takeReady key).1 = sched.setWake key
      { sched.wakes key with
        ready := false, polls := (sched.wakes key).polls + 1 } := by
    unfold Sched.takeReady
    exact congrArg Prod.fst (if_pos hflag)
  have hwake := sched.wakes_setWake key key
    { sched.wakes key with
      ready := false, polls := (sched.wakes key).polls + 1 }
  rw [if_pos rfl] at hwake
  have hpolls : (sched.takeReady key).1.polls key = sched.polls key + 1 := by
    unfold Sched.polls
    rw [htaken, hwake]
  refine ⟨?_, ?_, ?_⟩
  · unfold Sched.flag
    rw [htaken, hwake]
  · rw [hpolls]
    exact Nat.succ_pos _
  · rintro ⟨call, hmem, hkey, hseen⟩
    rw [hpolls] at hseen
    rw [htaken] at hmem
    have hbound := hledger.seen call (List.mem_append_right _ hmem)
    rw [hkey, hseen] at hbound
    exact Nat.not_succ_le_self _ hbound

theorem Sched.takeReady_others (sched : Sched) {other : Key}
    (hne : other ≠ key) :
    (sched.takeReady key).1.wakes other = sched.wakes other := by
  unfold Sched.takeReady
  split
  · show (sched.setWake key _).wakes other = _
    rw [Sched.wakes_setWake, if_neg hne]
  · rfl

theorem Sched.takeReady_clear (hflag : sched.flag key = false) :
    (sched.takeReady key).1 = sched := by
  unfold Sched.takeReady
  rw [if_neg]
  intro hset
  unfold Sched.flag at hflag
  rw [hset] at hflag
  cases hflag

/-- The parts of the state that a poll that begins leaves alone. -/
theorem Sched.takeReady_rest (sched : Sched) (key : Key) :
    (sched.takeReady key).1.items = sched.items ∧
      (sched.takeReady key).1.ready = sched.ready ∧
      (sched.takeReady key).1.calls = sched.calls ∧
      (sched.takeReady key).1.finished = sched.finished := by
  unfold Sched.takeReady
  split <;> exact ⟨rfl, rfl, rfl, rfl⟩

theorem Booked.takeReady (h : Booked late sched) (hledger : sched.Ledger)
    (key : Key) : Booked late (sched.takeReady key).1 := by
  cases hflag : sched.flag key with
  | false =>
      rw [Sched.takeReady_clear hflag]
      exact h
  | true =>
      rcases hledger.taken hflag with ⟨hclear, hpolls, hnever⟩
      have hothers := fun {other : Key} (hne : other ≠ key) =>
        sched.takeReady_others hne
      rcases sched.takeReady_rest key with ⟨hitems, hready, hcalls, hfinished⟩
      revert hclear hpolls hnever hothers hitems hready hcalls hfinished
      generalize (sched.takeReady key).1 = taken
      intro hclear hpolls hnever hothers hitems hready hcalls hfinished
      constructor
      · intro other hlive hdue
        by_cases heq : other = key
        · rw [heq] at hdue
          rcases hdue with howed | hzero
          · exact absurd howed hnever
          · rw [hzero] at hpolls
            exact absurd hpolls (Nat.lt_irrefl 0)
        · unfold Sched.isLive at hlive
          unfold Sched.Owed Sched.polls at hdue
          unfold Sched.flag Sched.Pushing
          rw [hitems] at hlive
          rw [hothers heq, hfinished] at hdue
          rw [hothers heq, hcalls]
          exact h.filed other hlive hdue
      · intro other hlive hset
        by_cases heq : other = key
        · rw [heq, hclear] at hset
          cases hset
        · unfold Sched.isLive at hlive
          unfold Sched.flag at hset
          unfold Sched.Pushing
          rw [hitems] at hlive
          rw [hothers heq] at hset
          rw [hready, hcalls]
          exact h.queued other hlive hset

theorem Booked.exec {op : Op V α} {input : Input V} {a : α}
    (h : Booked late w.sched) (hledger : w.sched.Ledger)
    (hkeys : op.rekeys = false) (hplaces : op.places = false)
    (hexec : op.exec A input w = some (w', a)) : Booked late w'.sched := by
  have hlive := Op.live_exec hplaces hexec
  have hready := Op.keys_exec hkeys hexec
  cases henters : op.enters with
  | false =>
      have hsame := Op.same_exec henters hexec
      constructor
      · intro key halive hdue
        rw [hsame.owed, hsame.books.polls] at hdue
        rw [hsame.books.flag, hsame.pushing]
        exact h.filed key (hlive key halive) hdue
      · intro key halive hset
        rw [hsame.books.flag] at hset
        rw [hready, hsame.pushing]
        exact h.queued key (hlive key halive) hset
  | true =>
      cases op with
      | sched op =>
          cases op with
          | reserve =>
              have hworld := (Op.sched_result hexec).left
              rw [hworld]
              have hwakes : forall {key : Key}, w.sched.isLive key = true ->
                  (SchedOp.reserve.exec w.sched).1.wakes key =
                    w.sched.wakes key := w.sched.reserve_wakes
              constructor
              · intro key halive hdue
                have hbefore : w.sched.isLive key = true := halive
                unfold Sched.Owed Sched.polls at hdue
                unfold Sched.flag
                dsimp only at hdue ⊢
                rw [hwakes hbefore] at hdue ⊢
                exact h.filed key hbefore hdue
              · intro key halive hset
                have hbefore : w.sched.isLive key = true := halive
                unfold Sched.flag at hset
                dsimp only at hset
                rw [hwakes hbefore] at hset
                exact h.queued key hbefore hset
          | takeReady key =>
              rw [(Op.sched_result hexec).left]
              exact h.takeReady hledger key
          | _ => first
              | (cases henters; done)
              | cases hkeys
      | _ => cases henters

theorem Sated.exec {op : Op V α} {input : Input V} {a : α}
    (h : Sated key w) (hledger : w.sched.Ledger)
    (hsuspends : op.suspends = false) (hplaces : op.places = false)
    (hexec : op.exec A input w = some (w', a)) : Sated key w' := by
  intro halive hasleep
  have hlive := Op.live_exec hplaces hexec key halive
  rcases h hlive (Op.asleep hsuspends hexec hasleep) with ⟨hpolls, hnever⟩
  cases henters : op.enters with
  | false =>
      have hsame := Op.same_exec henters hexec
      rw [hsame.books.polls, hsame.owed]
      exact ⟨hpolls, hnever⟩
  | true =>
      cases op with
      | sched op =>
          rw [(Op.sched_result hexec).left]
          cases op with
          | reserve =>
              have hwakes := w.sched.reserve_wakes hlive
              unfold Sched.Owed Sched.polls
              dsimp only
              rw [hwakes]
              exact ⟨hpolls, hnever⟩
          | markReady other =>
              show 0 < (w.sched.markReady other).polls key ∧
                ¬ (w.sched.markReady other).Owed key
              have hsame : (w.sched.markReady other).polls key =
                  w.sched.polls key ∧
                  (w.sched.markReady other).finished = w.sched.finished := by
                unfold Sched.markReady
                split
                · exact ⟨rfl, rfl⟩
                · refine ⟨?_, rfl⟩
                  show (w.sched.setWake other _).polls key = _
                  rw [Sched.polls_setWake]
                  split
                  · rename_i heq
                    rw [heq]
                    rfl
                  · rfl
              unfold Sched.Owed
              rw [hsame.left, hsame.right]
              exact ⟨hpolls, hnever⟩
          | takeReady other =>
              show 0 < (w.sched.takeReady other).1.polls key ∧
                ¬ (w.sched.takeReady other).1.Owed key
              cases hflag : w.sched.flag other with
              | false =>
                  rw [Sched.takeReady_clear hflag]
                  exact ⟨hpolls, hnever⟩
              | true =>
                  by_cases heq : key = other
                  · rw [heq]
                    exact (hledger.taken hflag).right
                  · unfold Sched.Owed Sched.polls
                    rw [w.sched.takeReady_others heq,
                      (w.sched.takeReady_rest other).right.right.right]
                    exact ⟨hpolls, hnever⟩
          | _ => cases henters
      | _ => cases henters

theorem Booked.tended (h : Booked late w.sched) (hledger : w.sched.Ledger)
    (key : Key) :
    Sated key { w with sched := (w.sched.takeReady key).1 } := by
  cases hflag : w.sched.flag key with
  | false =>
      rw [Sched.takeReady_clear hflag]
      exact h.idle hflag
  | true => exact fun _ _ => (hledger.taken hflag).right

/-- The operation may make room for a reply, or look into the inbox. -/
def Op.vacates : Op V α -> Bool
  | .sched (.remove _) => true
  | .sched .drain => true
  | .mail (.pollRecv _) => true
  | .mail .tryRecv => true
  | _ => false

theorem hasCapacity_mono {n m : Nat} (hle : n <= m)
    (h : hasCapacity A n = false) : hasCapacity A m = false := by
  unfold hasCapacity at h ⊢
  split at h
  · have hfull := of_decide_eq_false h
    exact decide_eq_false (fun hroom => hfull (Nat.lt_of_le_of_lt hle hroom))
  · cases h

theorem Op.length_kept {op : Op V α} {input : Input V} {a : α}
    (hop : op.vacates = false) (h : op.exec A input w = some (w', a)) :
    w.sched.items.length <= w'.sched.items.length := by
  cases hhandles : op.handles with
  | false =>
      rw [Op.items_same hhandles h]
  | true =>
      cases op with
      | sched op =>
          rw [(Op.sched_result h).left]
          cases op with
          | reserve => exact Nat.le_refl _
          | place key future =>
              show w.sched.items.length <= (w.sched.items.place key _).length
              unfold Slots.place Slots.length
              split
              · exact Nat.le_succ _
              · exact Nat.le_refl _
          | takeReply key =>
              show _ <= (w.sched.takeReply key).1.items.length
              unfold Sched.takeReply
              split
              · exact Nat.le_of_eq (Slots.length_modify _ _ _).symm
              · exact Nat.le_refl _
          | takeFinal key =>
              show _ <= (w.sched.takeFinal key).1.items.length
              unfold Sched.takeFinal
              split
              · exact Nat.le_of_eq (Slots.length_modify _ _ _).symm
              · exact Nat.le_refl _
          | _ => first
              | (cases hop; done)
              | cases hhandles
      | user site =>
          have hschedules := Op.user_schedules h
          revert hschedules
          generalize w'.sched = sched'
          intro hschedules
          cases hschedules with
          | returned key value _ =>
              exact Nat.le_of_eq (Slots.length_modify _ _ _).symm
          | _ => exact Nat.le_refl _
      | _ => cases hhandles

theorem Op.inbox_kept {op : Op V α} {input : Input V} {a : α}
    (hop : op.vacates = false) (h : op.exec A input w = some (w', a)) :
    w'.mail.queue = w.mail.queue ∧ w'.mail.waker = w.mail.waker := by
  cases op with
  | mail op =>
      cases h
      cases op with
      | pollRecv turn => cases hop
      | tryRecv => cases hop
      | replyIsClosed envelope =>
          show (w.mail.replyIsClosed envelope).1.queue = _ ∧
            (w.mail.replyIsClosed envelope).1.waker = _
          unfold Mail.replyIsClosed Mail.reject
          split
          · split <;> exact ⟨rfl, rfl⟩
          · exact ⟨rfl, rfl⟩
      | beginDispatch envelope =>
          show (w.mail.beginDispatch w.control.mode envelope).1.queue = _ ∧
            (w.mail.beginDispatch w.control.mode envelope).1.waker = _
          unfold Mail.beginDispatch Mail.reject
          split
          · split <;> exact ⟨rfl, rfl⟩
          · split <;> exact ⟨rfl, rfl⟩
      | beginCompletion id =>
          show (w.mail.beginCompletion w.control.mode id).1.queue = _ ∧
            (w.mail.beginCompletion w.control.mode id).1.waker = _
          unfold Mail.beginCompletion
          split <;> exact ⟨rfl, rfl⟩
      | _ => exact ⟨rfl, rfl⟩
  | _ =>
      rcases Op.mail_exec rfl h with ⟨returned, hmail, _⟩
      rw [hmail]
      exact ⟨rfl, rfl⟩

theorem InboxSeen.exec {op : Op V α} {input : Input V} {a : α}
    (h : InboxSeen A w) (hsuspends : op.suspends = false)
    (hop : op.vacates = false) (hexec : op.exec A input w = some (w', a)) :
    InboxSeen A w' := by
  intro hasleep
  rcases Op.inbox_kept hop hexec with ⟨hqueue, hwaker⟩
  rw [hqueue, hwaker]
  exact (h (Op.asleep hsuspends hexec hasleep)).imp_left
    (hasCapacity_mono (Op.length_kept hop hexec))

def Op.looksForExit : Op V α -> Bool
  | .kin .pollExit => true
  | _ => false

theorem Op.exits_kept {op : Op V α} {input : Input V} {a : α}
    (hop : op.looksForExit = false) (h : op.exec A input w = some (w', a)) :
    w'.kin.events = w.kin.events ∧ w'.kin.waker = w.kin.waker := by
  cases op with
  | kin op =>
      cases h
      cases op with
      | pollExit => cases hop
      | reap event =>
          show (w.kin.reap event).1.events = _ ∧ (w.kin.reap event).1.waker = _
          unfold Kin.reap Kin.note
          split
          · split <;> exact ⟨rfl, rfl⟩
          · exact ⟨rfl, rfl⟩
      | request key shutdown =>
          show (w.kin.request key shutdown).events = _ ∧
            (w.kin.request key shutdown).waker = _
          unfold Kin.request Kin.advance
          split
          · exact ⟨rfl, rfl⟩
          · split <;> exact ⟨rfl, rfl⟩
      | wait key =>
          show (w.kin.wait key).1.events = _ ∧ (w.kin.wait key).1.waker = _
          unfold Kin.wait Kin.note
          split
          · split <;> exact ⟨rfl, rfl⟩
          · exact ⟨rfl, rfl⟩
      | _ => exact ⟨rfl, rfl⟩
  | user site =>
      cases input with
      | user act =>
          cases act with
          | spawnChild =>
              change w.userStep A site .spawnChild = _ at h
              unfold World.userStep at h
              dsimp only at h
              split at h
              · cases h
                show (ActorScope.spawnChild _ w.kin () ()).1.events = _ ∧
                  (ActorScope.spawnChild _ w.kin () ()).1.waker = _
                unfold ActorScope.spawnChild
                split <;> exact ⟨rfl, rfl⟩
              · cases h
          | returns value =>
              cases h
              show (w.recordReturn site value).kin.events = _ ∧
                (w.recordReturn site value).kin.waker = _
              rw [World.kin_recordReturn]
              exact ⟨rfl, rfl⟩
          | _ => grind [Op.exec, World.userStep]
      | _ => cases h
  | spawn =>
      rw [Op.spawn_exec h]
      exact ⟨rfl, rfl⟩
  | _ => grind [Op.exec, World.wakeIf, World.transact]

theorem ExitsSeen.exec {op : Op V α} {input : Input V} {a : α}
    (h : ExitsSeen w) (hsuspends : op.suspends = false)
    (hop : op.looksForExit = false)
    (hexec : op.exec A input w = some (w', a)) : ExitsSeen w' := by
  intro hasleep
  rcases Op.exits_kept hop hexec with ⟨hevents, hwaker⟩
  rw [hevents, hwaker]
  exact h (Op.asleep hsuspends hexec hasleep)

end Loac

import Loac.Scheduling.Effects

/-!
# Queued keys

A wake that sets the ready flag of a reply begins an episode and owes the ready
queue one key.  Taking the flag ends the episode, and popping a key pays for
it.  A poll of the lease holder takes the flag without popping, so the key of
its episode is left over.
-/

namespace Loac

open Interleave

variable {V α : Type} {A : ActorConfig} {w w' : World V} {key other : Key}
  {sched sched' : Sched}

def NotifyCall.owes (key : Key) (call : NotifyCall) : Bool :=
  call.push && call.key == key

namespace Sched

def pushes (sched : Sched) (key : Key) : Nat :=
  sched.calls.countP (NotifyCall.owes key)

def backlog (sched : Sched) (key : Key) : Nat :=
  sched.ready.count key + sched.pushes key

def episode (sched : Sched) (key : Key) : Nat :=
  if (sched.wakes key).ready then 1 else 0

theorem episode_le_one (sched : Sched) (key : Key) : sched.episode key <= 1 := by
  unfold episode
  split
  · exact Nat.le_refl _
  · exact Nat.zero_le _

def Conserves (sched sched' : Sched) : Prop :=
  forall key, sched'.backlog key + sched.episode key =
    sched.backlog key + sched'.episode key

theorem Conserves.refl (sched : Sched) : Conserves sched sched :=
  fun _ => rfl

theorem episode_setWake (sched : Sched) (key other : Key) (wake : ReplyWake) :
    (sched.setWake key wake).episode other =
      if other = key then (if wake.ready then 1 else 0)
      else sched.episode other := by
  unfold episode
  show (if (Function.update sched.wakes key wake other).ready then 1 else 0) = _
  by_cases heq : other = key
  · rw [if_pos heq, heq, Function.update_self]
  · rw [if_neg heq, Function.update_of_ne heq]

theorem count_append_self (keys : List Key) (key other : Key) :
    (keys ++ [key]).count other =
      keys.count other + (if other = key then 1 else 0) := by
  rw [List.count_append, List.count_singleton]
  by_cases heq : other = key
  · subst heq
    simp
  · simp [heq, Ne.symm heq]

theorem conserves_markReady (sched : Sched) (key : Key) :
    Conserves sched (sched.markReady key) := by
  unfold markReady
  split
  · exact Conserves.refl sched
  · rename_i hclear
    intro other
    have hepisode := episode_setWake sched key other
      { sched.wakes key with
        ready := true, marks := (sched.wakes key).marks + 1 }
    have hready := count_append_self sched.ready key other
    by_cases heq : other = key
    · subst heq
      rw [if_pos rfl] at hepisode hready
      have hbefore : sched.episode other = 0 := if_neg hclear
      show (sched.ready ++ [other]).count other + sched.pushes other + _ =
        sched.backlog other + (sched.setWake other _).episode other
      rw [hready, hepisode, hbefore]
      unfold backlog
      simp only [if_true]
      omega
    · rw [if_neg heq] at hepisode hready
      show (sched.ready ++ [key]).count other + sched.pushes other + _ =
        sched.backlog other + (sched.setWake key _).episode other
      rw [hready, hepisode]
      rfl

/-! ## Wakes -/

theorem countP_push (calls : List NotifyCall) (call : NotifyCall) (other : Key) :
    (calls ++ [call]).countP (NotifyCall.owes other) =
      calls.countP (NotifyCall.owes other) +
        (if call.push = true ∧ call.key = other then 1 else 0) := by
  rw [List.countP_append, List.countP_singleton]
  unfold NotifyCall.owes
  simp only [Bool.and_eq_true, beq_iff_eq]

theorem conserves_notifySwap (sched : Sched) (key : Key) :
    Conserves sched (sched.notifySwap key) := by
  unfold notifySwap
  split
  · intro other
    have hpushes := countP_push sched.calls
      { key := key, push := false, seen := (sched.wakes key).polls } other
    rw [if_neg (by simp)] at hpushes
    show sched.ready.count other + List.countP _ (sched.calls ++ _) + _ =
      sched.backlog other + sched.episode other
    rw [hpushes]
    rfl
  · rename_i hclear
    intro other
    have hepisode := episode_setWake sched key other
      { sched.wakes key with
        ready := true, sets := (sched.wakes key).sets + 1 }
    have hpushes := countP_push sched.calls
      { key := key, push := true, seen := (sched.wakes key).polls } other
    show sched.ready.count other + List.countP _ (sched.calls ++ _) + _ =
      sched.ready.count other + sched.pushes other +
        (sched.setWake key _).episode other
    rw [hpushes, hepisode]
    by_cases heq : other = key
    · subst heq
      have hbefore : sched.episode other = 0 := if_neg hclear
      rw [hbefore]
      simp only [and_self, if_true]
      unfold pushes
      omega
    · rw [if_neg heq, if_neg (fun h => heq h.right.symm)]
      rfl

theorem countP_set {calls : List NotifyCall} {index : Nat} {seen : Nat}
    (h : calls[index]? = some { key := key, push := true, seen := seen })
    (other : Key) :
    (calls.set index { key := key, push := false, seen := seen }).countP
        (NotifyCall.owes other) +
        (if other = key then 1 else 0) =
      calls.countP (NotifyCall.owes other) := by
  induction calls generalizing index with
  | nil => cases h
  | cons call rest ih =>
      cases index with
      | zero =>
          cases h
          have howes : NotifyCall.owes other ⟨key, true, seen⟩ =
              decide (other = key) := by
            unfold NotifyCall.owes
            rw [Bool.true_and, Bool.beq_eq_decide_eq]
            exact decide_eq_decide.mpr eq_comm
          have hpaid : NotifyCall.owes other ⟨key, false, seen⟩ = false := rfl
          rw [List.set_cons_zero, List.countP_cons, List.countP_cons, howes,
            hpaid]
          simp
      | succ index =>
          have hrest := ih h
          simp only [List.set_cons_succ, List.countP_cons]
          omega

theorem conserves_notifyPush {index : Nat}
    (h : sched.notifyPush index = some sched') : Conserves sched sched' := by
  unfold notifyPush at h
  split at h
  · rename_i key seen hcall
    cases h
    intro other
    have hpushes := countP_set hcall other
    have hready := count_append_self sched.ready key other
    show List.count other (sched.ready ++ _) +
      List.countP _ (sched.calls.set index _) + sched.episode other =
        sched.backlog other + sched.episode other
    rw [hready]
    unfold backlog pushes
    omega
  · cases h

theorem countP_eraseIdx {calls : List NotifyCall} {index : Nat} {seen : Nat}
    (h : calls[index]? = some { key := key, push := false, seen := seen })
    (other : Key) :
    (calls.eraseIdx index).countP
        (NotifyCall.owes other) =
      calls.countP (NotifyCall.owes other) := by
  induction calls generalizing index with
  | nil => cases h
  | cons call rest ih =>
      cases index with
      | zero =>
          cases h
          have hpaid : NotifyCall.owes other ⟨key, false, seen⟩ = false := rfl
          rw [List.eraseIdx_cons_zero, List.countP_cons, hpaid]
          simp
      | succ index =>
          have hrest := ih h
          simp only [List.eraseIdx_cons_succ, List.countP_cons]
          omega

theorem conserves_notifyWake {index : Nat} {woken : Bool}
    (h : sched.notifyWake index = some (sched', woken)) :
    Conserves sched sched' := by
  unfold notifyWake at h
  split at h
  · rename_i key seen hcall
    cases h
    intro other
    have hepisode := episode_setWake sched key other
      { sched.wakes key with task := false }
    have hpushes := countP_eraseIdx hcall other
    show List.count other sched.ready + List.countP _ _ +
      sched.episode other =
        sched.backlog other + (sched.setWake key _).episode other
    rw [hpushes, hepisode]
    by_cases heq : other = key
    · subst heq
      rw [if_pos rfl]
      rfl
    · rw [if_neg heq]
      rfl
  · cases h

/-!
## The actor task
-/

theorem popReady_cons {rest : List Key} (h : sched.ready = key :: rest) :
    sched.popReady = ({ sched with ready := rest }, some key) := by
  unfold popReady
  rw [h]

theorem backlog_popReady {rest : List Key} (h : sched.ready = key :: rest)
    (other : Key) :
    sched.popReady.1.backlog other + (if other = key then 1 else 0) =
      sched.backlog other := by
  rw [popReady_cons h]
  show rest.count other + sched.pushes other + _ = _
  unfold backlog
  rw [h, List.count_cons]
  by_cases heq : other = key
  · subst heq
    simp only [if_true, beq_self_eq_true]
    omega
  · have hne : (key == other) = false := beq_false_of_ne (Ne.symm heq)
    simp [heq, hne]

theorem episode_popReady (sched : Sched) (key : Key) :
    sched.popReady.1.episode key = sched.episode key := by
  unfold popReady
  split <;> rfl

theorem backlog_popReady_le (sched : Sched) (key : Key) :
    sched.popReady.1.backlog key <= sched.backlog key := by
  cases hready : sched.ready with
  | nil =>
      have hsame : sched.popReady.1 = sched := by
        unfold popReady
        rw [hready]
      exact Nat.le_of_eq (congrArg (fun s => s.backlog key) hsame)
  | cons first rest =>
      have hpop := backlog_popReady hready key
      omega

theorem backlog_takeReady (sched : Sched) (key other : Key) :
    (sched.takeReady key).1.backlog other = sched.backlog other := by
  unfold takeReady
  split <;> rfl

theorem episode_takeReady (sched : Sched) (key other : Key) :
    (sched.takeReady key).1.episode other =
      if other = key then 0 else sched.episode other := by
  unfold takeReady
  split
  · rw [episode_setWake]
    rfl
  · rename_i hclear
    by_cases heq : other = key
    · subst heq
      rw [if_pos rfl]
      exact if_neg hclear
    · rw [if_neg heq]

end Sched

/-!
## Steps
-/

structure Sched.Signals (sched sched' : Sched) : Prop where
  conserves : sched.Conserves sched'
  /-- No flag is cleared. -/
  sets : forall key, sched.episode key <= sched'.episode key
  /-- No flag is set for a key that was not given out. -/
  known : forall key, sched.items.next <= key ->
    sched'.episode key = sched.episode key

theorem Sched.Signals.refl (sched : Sched) : sched.Signals sched :=
  ⟨Conserves.refl sched, fun _ => Nat.le_refl _, fun _ _ => rfl⟩

theorem Sched.signals_notifySwap (h : key < sched.items.next) :
    sched.Signals (sched.notifySwap key) := by
  have hconserves := Sched.conserves_notifySwap sched key
  revert hconserves
  unfold Sched.notifySwap
  split
  · intro hconserves
    exact ⟨hconserves, fun _ => Nat.le_refl _, fun _ _ => rfl⟩
  · rename_i hclear
    intro hconserves
    have hepisode := fun other => Sched.episode_setWake sched key other
      { sched.wakes key with
        ready := true, sets := (sched.wakes key).sets + 1 }
    refine ⟨hconserves, fun other => ?_, fun other hother => ?_⟩
    · show _ <= (sched.setWake key _).episode other
      rw [hepisode]
      by_cases heq : other = key
      · rw [if_pos heq]
        exact Sched.episode_le_one sched other
      · exact Nat.le_of_eq (if_neg heq).symm
    · show (sched.setWake key _).episode other = _
      rw [hepisode, if_neg]
      intro heq
      subst heq
      exact absurd h (Nat.not_lt_of_le hother)

theorem Sched.signals_same (hconserves : sched.Conserves sched')
    (hflags : forall key, sched'.episode key = sched.episode key) :
    sched.Signals sched' :=
  ⟨hconserves, fun key => Nat.le_of_eq (hflags key).symm, fun key _ => hflags key⟩

theorem EnvAct.signals {e : EnvAct} (h : e.exec A w = some w') :
    w.sched.Signals w'.sched := by
  cases e with
  | notifySwap key =>
      rw [EnvAct.exec] at h
      split at h
      · rename_i hkey
        cases h
        exact Sched.signals_notifySwap hkey
      · cases h
  | notifyPush index =>
      rcases Option.map_eq_some_iff.mp h with ⟨sched, hpush, hw'⟩
      subst hw'
      have hconserves := Sched.conserves_notifyPush hpush
      unfold Sched.notifyPush at hpush
      split at hpush
      · cases hpush
        exact Sched.signals_same hconserves (fun _ => rfl)
      · cases hpush
  | notifyWake index =>
      rcases Option.map_eq_some_iff.mp h with ⟨⟨sched, woken⟩, hwake, hw'⟩
      subst hw'
      have hconserves := Sched.conserves_notifyWake hwake
      unfold Sched.notifyWake at hwake
      split at hwake
      · rename_i key seen hcall
        cases hwake
        refine Sched.signals_same hconserves fun other => ?_
        show (w.sched.setWake key _).episode other = _
        rw [Sched.episode_setWake]
        by_cases heq : other = key
        · subst heq
          rw [if_pos rfl]
          rfl
        · rw [if_neg heq]
      · cases hwake
  | _ =>
      have hsched : w'.sched = w.sched := by
        grind [EnvAct.exec, World.transact, World.wakeIf,
          Option.map_eq_some_iff]
      rw [hsched]
      exact Sched.Signals.refl w.sched

/-- The operation may set or clear a flag, or pop a key. -/
def Op.paces : Op V α -> Bool
  | .sched .reserve => true
  | .sched (.markReady _) => true
  | .sched (.takeReady _) => true
  | .sched .popReady => true
  | _ => false

def Sched.Rests (sched sched' : Sched) : Prop :=
  (forall key, sched'.backlog key = sched.backlog key) ∧
    (forall key, sched'.episode key = sched.episode key) ∧
    sched'.items.next = sched.items.next

theorem Op.rests {op : Op V α} {input : Input V} {a : α}
    (hop : op.paces = false) (h : op.exec A input w = some (w', a)) :
    w.sched.Rests w'.sched := by
  cases op with
  | sched op =>
      rw [(Op.sched_result h).left]
      cases op with
      | register key =>
          refine ⟨fun _ => rfl, fun other => ?_, rfl⟩
          show (w.sched.setWake key _).episode other = _
          rw [Sched.episode_setWake]
          by_cases heq : other = key
          · subst heq
            rw [if_pos rfl]
            rfl
          · rw [if_neg heq]
      | place key future =>
          exact ⟨fun _ => rfl, fun _ => rfl, Slots.next_place ..⟩
      | remove key => exact ⟨fun _ => rfl, fun _ => rfl, rfl⟩
      | drain =>
          show w.sched.Rests w.sched.drain.1
          unfold Sched.drain
          split <;> exact ⟨fun _ => rfl, fun _ => rfl, rfl⟩
      | takeReply key =>
          show w.sched.Rests (w.sched.takeReply key).1
          unfold Sched.takeReply
          split <;> exact ⟨fun _ => rfl, fun _ => rfl, rfl⟩
      | takeFinal key =>
          show w.sched.Rests (w.sched.takeFinal key).1
          unfold Sched.takeFinal
          split <;> exact ⟨fun _ => rfl, fun _ => rfl, rfl⟩
      | _ => first
          | exact ⟨fun _ => rfl, fun _ => rfl, rfl⟩
          | cases hop
  | user site =>
      have hschedules := Op.user_schedules h
      revert hschedules
      generalize w'.sched = sched'
      intro hschedules
      cases hschedules <;> exact ⟨fun _ => rfl, fun _ => rfl, rfl⟩
  | _ =>
      rw [Op.sched_exec rfl h]
      exact ⟨fun _ => rfl, fun _ => rfl, rfl⟩

end Loac

import Loac.Backlog.Keys
import Loac.Containment.Works
import Loac.Interleave.Shadow

/-!
# Keys that are left over

A drain pops a key before it takes the flag of its reply, and the popped key
pays for the episode.  Only a poll of the lease holder takes the flag of an
episode whose key is still to be popped.  These polls are recorded, and every
queued key belongs to an episode or to one of them.
-/

namespace Loac

open Interleave Interleave.Prog

variable {V α : Type} {A : ActorConfig} {key : Key}
  {s s' : World V × List Key} {X : World V × List Key -> Prop}

/-- A poll of the lease holder that leaves a key of its episode over. -/
def Overtakes (w : World V) (key : Key) : Prop :=
  w.sched.lease = some key ∧ (w.sched.wakes key).ready = true ∧
    0 < w.sched.backlog key

instance (w : World V) (key : Key) : Decidable (Overtakes w key) :=
  inferInstanceAs (Decidable (_ ∧ _ ∧ _))

def leftovers : {α : Type} -> Op V α -> Input V -> World V -> List Key ->
    List Key
  | _, .sched (.takeReady key), _, w, log =>
      if Overtakes w key then key :: log else log
  | _, _, _, _, log => log

abbrev overtaking (V : Type) (A : ActorConfig) :
    Machine (Op V) (World V × List Key) (Input V) EnvAct Unit :=
  (machine V A).shadowed leftovers

/-- Every queued key belongs to an episode, or was left over. -/
structure Accounted (s : World V × List Key) : Prop where
  bounded : forall key,
    s.1.sched.backlog key <= s.1.sched.episode key + s.2.count key
  known : forall key, s.1.sched.items.next <= key -> s.1.sched.backlog key = 0

def Spare (key : Key) (s : World V × List Key) : Prop :=
  s.1.sched.backlog key + 1 <= s.1.sched.episode key + s.2.count key

def Given (key : Key) (s : World V × List Key) : Prop :=
  key < s.1.sched.items.next

def KeyDemands : {α : Type} -> Op V α -> World V × List Key -> Prop
  | _, .sched (.markReady key), s => Given key s
  | _, .sched (.takeReady key), s => s.1.sched.lease = some key ∨ Spare key s
  | _, _, _ => True

def keyDiscipline (V : Type) (A : ActorConfig) :
    Discipline (overtaking V A) where
  inv := Accounted
  admits := fun _ _ _ => True
  tolerates := fun _ _ => True
  demands := KeyDemands

/-!
## Steps
-/

theorem leftovers_same {op : Op V α} (hop : op.paces = false)
    (input : Input V) (w : World V) (log : List Key) :
    leftovers op input w log = log := by
  cases op with
  | sched op => cases op <;> first
      | rfl
      | cases hop
  | _ => rfl

theorem Accounted.of_signals (h : Accounted s)
    (hsignals : s.1.sched.Signals s'.1.sched) (hlog : s'.2 = s.2)
    (hitems : s'.1.sched.items = s.1.sched.items) : Accounted s' where
  bounded := by
    intro key
    have hbefore := h.bounded key
    have hconserves := hsignals.conserves key
    rw [hlog]
    omega
  known := by
    intro key hkey
    rw [hitems] at hkey
    have hbefore := h.known key hkey
    have hconserves := hsignals.conserves key
    rw [hsignals.known key hkey] at hconserves
    omega

theorem Accounted.of_rests (h : Accounted s)
    (hrests : s.1.sched.Rests s'.1.sched) (hlog : s'.2 = s.2) :
    Accounted s' where
  bounded := by
    intro key
    rw [hrests.left key, hrests.right.left key, hlog]
    exact h.bounded key
  known := by
    intro key hkey
    rw [hrests.left key]
    rw [hrests.right.right] at hkey
    exact h.known key hkey

theorem Accounted.reserve {w : World V} {log : List Key}
    (h : Accounted (w, log)) :
    Accounted ({ w with sched := (SchedOp.reserve.exec w.sched).1 }, log) where
  bounded := by
    intro key
    show w.sched.backlog key <= (w.sched.setWake _ .new).episode key + _
    rw [Sched.episode_setWake]
    by_cases heq : key = w.sched.items.next
    · have hnone := h.known key (Nat.le_of_eq heq.symm)
      change w.sched.backlog key = 0 at hnone
      rw [hnone]
      exact Nat.zero_le _
    · rw [if_neg heq]
      exact h.bounded key
  known := by
    intro key hkey
    exact h.known key (Nat.le_of_succ_le hkey)

theorem Accounted.markReady {w : World V} {log : List Key}
    (h : Accounted (w, log)) (hkey : Given key (w, log)) :
    Accounted ({ w with sched := w.sched.markReady key }, log) where
  bounded := by
    intro other
    have hbefore : w.sched.backlog other <=
        w.sched.episode other + log.count other := h.bounded other
    have hconserves := Sched.conserves_markReady w.sched key other
    show (w.sched.markReady key).backlog other <=
      (w.sched.markReady key).episode other + log.count other
    omega
  known := by
    intro other hother
    have hitems : (w.sched.markReady key).items = w.sched.items :=
      @SchedOp.items_same _ (.markReady key) rfl w.sched
    change (w.sched.markReady key).items.next <= other at hother
    rw [hitems] at hother
    have hbefore : w.sched.backlog other = 0 := h.known other hother
    have hconserves := Sched.conserves_markReady w.sched key other
    have hsame : (w.sched.markReady key).episode other =
        w.sched.episode other := by
      unfold Sched.markReady
      split
      · rfl
      · show (w.sched.setWake key _).episode other = _
        rw [Sched.episode_setWake, if_neg]
        intro heq
        subst heq
        exact absurd hkey (Nat.not_lt_of_le hother)
    show (w.sched.markReady key).backlog other = 0
    omega

theorem Accounted.popReady {w : World V} {log : List Key}
    (h : Accounted (w, log)) :
    Accounted ({ w with sched := w.sched.popReady.1 }, log) where
  bounded := by
    intro other
    have hbefore : w.sched.backlog other <=
        w.sched.episode other + log.count other := h.bounded other
    have hafter := Sched.backlog_popReady_le w.sched other
    show w.sched.popReady.1.backlog other <=
      w.sched.popReady.1.episode other + log.count other
    rw [Sched.episode_popReady]
    omega
  known := by
    intro other hother
    have hitems : w.sched.popReady.1.items = w.sched.items :=
      @SchedOp.items_same _ (.popReady) rfl w.sched
    change w.sched.popReady.1.items.next <= other at hother
    rw [hitems] at hother
    have hbefore : w.sched.backlog other = 0 := h.known other hother
    have hafter := Sched.backlog_popReady_le w.sched other
    show w.sched.popReady.1.backlog other = 0
    omega

theorem popReady_spare {w : World V} {log : List Key}
    (h : Accounted (w, log)) (hpop : w.sched.popReady.2 = some key) :
    Spare key ({ w with sched := w.sched.popReady.1 }, log) := by
  have hbefore : w.sched.backlog key <=
      w.sched.episode key + log.count key := h.bounded key
  show w.sched.popReady.1.backlog key + 1 <=
    w.sched.popReady.1.episode key + log.count key
  rw [Sched.episode_popReady]
  cases hready : w.sched.ready with
  | nil =>
      unfold Sched.popReady at hpop
      rw [hready] at hpop
      cases hpop
  | cons first rest =>
      rw [Sched.popReady_cons hready] at hpop
      cases hpop
      have hafter := Sched.backlog_popReady hready key
      rw [if_pos rfl] at hafter
      omega

/-- The poll begins with a flag whose key was popped, or leaves a key over. -/
theorem Accounted.takeReady {w : World V} {log : List Key} {input : Input V}
    (h : Accounted (w, log))
    (hdemands : KeyDemands (.sched (.takeReady key)) (w, log)) :
    Accounted ({ w with sched := (w.sched.takeReady key).1 },
      leftovers (.sched (.takeReady key)) input w log) where
  bounded := by
    intro other
    have hbefore : w.sched.backlog other <=
        w.sched.episode other + log.count other := h.bounded other
    show (w.sched.takeReady key).1.backlog other <=
      (w.sched.takeReady key).1.episode other +
        (if Overtakes w key then key :: log else log).count other
    rw [Sched.backlog_takeReady, Sched.episode_takeReady]
    by_cases heq : other = key
    · subst heq
      rw [if_pos rfl]
      by_cases hover : Overtakes w other
      · rw [if_pos hover, List.count_cons_self]
        have hone := Sched.episode_le_one w.sched other
        omega
      · rw [if_neg hover]
        cases hready : (w.sched.wakes other).ready with
        | false =>
            have hnone : w.sched.episode other = 0 := by
              unfold Sched.episode
              rw [hready]
              rfl
            omega
        | true =>
            have hone := Sched.episode_le_one w.sched other
            rcases hdemands with hlease | hspare
            · have hempty : ¬ 0 < w.sched.backlog other :=
                fun hpos => hover ⟨hlease, hready, hpos⟩
              omega
            · change w.sched.backlog other + 1 <=
                w.sched.episode other + log.count other at hspare
              omega
    · rw [if_neg heq]
      split
      · rw [List.count_cons_of_ne (Ne.symm heq)]
        exact hbefore
      · exact hbefore
  known := by
    intro other hother
    have hitems : (w.sched.takeReady key).1.items = w.sched.items :=
      @SchedOp.items_same _ (.takeReady key) rfl w.sched
    show (w.sched.takeReady key).1.backlog other = 0
    rw [Sched.backlog_takeReady]
    change (w.sched.takeReady key).1.items.next <= other at hother
    rw [hitems] at hother
    exact h.known other hother

theorem key_lawful : (keyDiscipline V A).Lawful where
  actor := by
    intro α op input s s' a hinv hdemands _ hexec
    rcases s with ⟨w, log⟩
    rcases s' with ⟨w', log'⟩
    rcases Machine.shadowed_exec hexec with ⟨hexec, hlog⟩
    have hbase : op.exec A input w = some (w', a) := hexec
    change log' = leftovers op input w log at hlog
    subst hlog
    cases hpaces : op.paces with
    | false =>
        exact Accounted.of_rests hinv (Op.rests hpaces hbase)
          (leftovers_same hpaces input w log)
    | true =>
        cases op with
        | sched op =>
            rcases Op.sched_result hbase with ⟨hw', _⟩
            subst hw'
            cases op with
            | reserve => exact Accounted.reserve hinv
            | markReady key => exact Accounted.markReady hinv hdemands
            | takeReady key => exact Accounted.takeReady hinv hdemands
            | popReady => exact Accounted.popReady hinv
            | _ => cases hpaces
        | _ => cases hpaces
  env := by
    intro e s s' hinv _ henv
    rcases Machine.shadowed_env henv with ⟨hbase, hlog⟩
    exact Accounted.of_signals hinv (EnvAct.signals hbase) hlog
      (EnvAct.items_exec hbase)

end Loac

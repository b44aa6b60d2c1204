import Loac.Containment.Works
import Loac.Scheduling.Effects

/-!
# The exclusive lease

The lease is no lock.  It is one slot that user code fills and empties, and
that the scheduler looks at before it polls a reply, and after a reply was
built or polled.  What follows from these looks is stated here: while a reply
holds the lease, nothing else of the actor runs.
-/

namespace Loac

open Interleave Interleave.Prog

variable {V α β γ : Type} {A : ActorConfig} {heed : Prop} {w w' : World V}
  {key : Key} {late : Option Key}

/-!
## What is claimed
-/

/-- User code that may run while the reply holds the lease. -/
def UserSite.Shares (key : Key) : UserSite -> Prop
  | .construct key' => key' = key
  | .replyPoll key' => key' = key
  | .hookPoll _ => False
  | .stopPoll _ => False
  | _ => True

/-- The replies whose future has returned, with one exception. -/
def Awaiting (late : Option Key) (w : World V) : Prop :=
  forall key scheduled, w.sched.items.get? key = some scheduled ->
    scheduled.returned = true -> late = some key

/-- A mode test finds a change while a reply that returned is in the queue. -/
def Neglects : {α : Type} -> Op V α -> World V -> Prop
  | _, .differs expected, w => w.control.mode ≠ expected ∧ ¬ Awaiting none w
  | _, _, _ => False

def Seated (heed : Prop) (w : World V) : Prop :=
  forall key, w.sched.lease = some key ->
    exists scheduled, w.sched.items.get? key = some scheduled ∧
      (heed -> scheduled.returned = false)

def LeaseDemands (heed : Prop) : {α : Type} -> Op V α -> World V -> Prop
  | _, .user site, w => forall key, w.sched.lease = some key -> site.Shares key
  | _, .mail (.beginDispatch _), w => w.sched.lease = none
  | _, .pollNotified, w => Seated heed w
  | _, _, _ => True

def leaseDiscipline (V : Type) (A : ActorConfig) (heed : Prop) :
    Discipline (machine V A) where
  inv := fun _ => True
  admits := fun op _ w => heed -> ¬ Neglects op w
  tolerates := fun _ _ => True
  demands := LeaseDemands heed

theorem lease_lawful : (leaseDiscipline V A heed).Lawful where
  actor := fun _ _ _ _ _ _ _ _ _ => trivial
  env := fun _ _ _ _ _ _ => trivial

/-!
## What is known along the way
-/

structure Vacant (heed : Prop) (w : World V) : Prop where
  lease : w.sched.lease = none
  awaiting : heed -> Awaiting none w

/-- The lease is free, or a reply of the queue holds it. -/
structure Leased (A : ActorConfig) (heed : Prop) (w : World V) : Prop where
  holder : forall key, w.sched.lease = some key ->
    w.sched.items.get? key ≠ none
  awaiting : heed -> Awaiting none w
  mailless : A.mailbox = none -> w.sched.lease = none

structure Own (heed : Prop) (key : Key) (late : Option Key) (w : World V) :
    Prop where
  lease : w.sched.lease = none ∨ w.sched.lease = some key
  awaiting : heed -> Awaiting late w

structure Occupied (heed : Prop) (key : Key) (late : Option Key) (w : World V) :
    Prop extends Own heed key late w where
  member : w.sched.items.get? key ≠ none

structure Building (heed : Prop) (key : Key) (w : World V) :
    Prop extends Own heed key none w where
  reserved : key < w.sched.items.next
  free : w.sched.items.get? key = none

theorem Vacant.leased (h : Vacant heed w) : Leased A heed w where
  holder := by
    intro key hheld
    rw [h.lease] at hheld
    cases hheld
  awaiting := h.awaiting
  mailless := fun _ => h.lease

theorem Leased.vacant (h : Leased A heed w) (hfree : w.sched.lease = none) :
    Vacant heed w :=
  ⟨hfree, h.awaiting⟩

theorem Own.vacant (h : Own heed key none w) (hfree : w.sched.lease ≠ some key) :
    Vacant heed w :=
  ⟨h.lease.resolve_right hfree, h.awaiting⟩

theorem Leased.seated (h : Leased A heed w) : Seated heed w := by
  intro key hheld
  cases hget : w.sched.items.get? key with
  | none => exact absurd hget (h.holder key hheld)
  | some scheduled =>
      refine ⟨scheduled, rfl, fun hheed => ?_⟩
      cases hreturned : scheduled.returned with
      | false => rfl
      | true => cases h.awaiting hheed key scheduled hget hreturned

theorem Occupied.leased (h : Occupied heed key late w)
    (hmailbox : A.mailbox ≠ none) (hawaiting : heed -> Awaiting none w) :
    Leased A heed w where
  holder := by
    intro other hheld
    cases h.lease with
    | inl hfree =>
        rw [hfree] at hheld
        cases hheld
    | inr hown =>
        rw [hown] at hheld
        cases hheld
        exact h.member
  awaiting := hawaiting
  mailless := fun hnone => absurd hnone hmailbox

/-!
## Facts about the queue
-/

def OfQueue (P : World V -> Prop) : Prop :=
  forall w w', w'.sched.items = w.sched.items ->
    w'.sched.lease = w.sched.lease -> P w -> P w'

theorem Awaiting.ofQueue (late : Option Key) :
    OfQueue (V := V) (Awaiting late) := by
  intro w w' hitems _ h
  unfold Awaiting
  rw [hitems]
  exact h

theorem Vacant.ofQueue : OfQueue (V := V) (Vacant heed) := by
  intro w w' hitems hlease h
  exact ⟨hlease.trans h.lease,
    fun hheed => Awaiting.ofQueue none w w' hitems hlease (h.awaiting hheed)⟩

theorem Leased.ofQueue : OfQueue (V := V) (Leased A heed) := by
  intro w w' hitems hlease h
  constructor
  · rw [hlease, hitems]
    exact h.holder
  · exact fun hheed =>
      Awaiting.ofQueue none w w' hitems hlease (h.awaiting hheed)
  · rw [hlease]
    exact h.mailless

theorem Own.ofQueue : OfQueue (V := V) (Own heed key late) := by
  intro w w' hitems hlease h
  constructor
  · rw [hlease]
    exact h.lease
  · exact fun hheed =>
      Awaiting.ofQueue late w w' hitems hlease (h.awaiting hheed)

theorem Occupied.ofQueue : OfQueue (V := V) (Occupied heed key late) := by
  intro w w' hitems hlease h
  refine ⟨Own.ofQueue w w' hitems hlease h.toOwn, ?_⟩
  rw [hitems]
  exact h.member

theorem Building.ofQueue : OfQueue (V := V) (Building heed key) := by
  intro w w' hitems hlease h
  refine ⟨Own.ofQueue w w' hitems hlease h.toOwn, ?_, ?_⟩
  · rw [hitems]
    exact h.reserved
  · rw [hitems]
    exact h.free

theorem OfQueue.and {P P' : World V -> Prop} (h : OfQueue P)
    (h' : OfQueue P') : OfQueue (fun w => P w ∧ P' w) :=
  fun w w' hitems hlease hw =>
    ⟨h w w' hitems hlease hw.left, h' w w' hitems hlease hw.right⟩

theorem lease_ofQueue (Q : Option Key -> Prop) :
    OfQueue (V := V) (fun w => Q w.sched.lease) := by
  intro w w' _ hlease h
  rw [hlease]
  exact h

section Steps

variable {P : World V -> Prop}

theorem OfQueue.stable (h : OfQueue P) :
    (leaseDiscipline V A heed).Stable P :=
  fun _ w w' _ _ henv hw =>
    h w w' (EnvAct.items_exec henv) (EnvAct.lease_exec henv) hw

/-- Parts whose operations touch neither the replies nor the lease. -/
def Part.abides : Part -> Bool
  | .drops => false
  | .polls => false
  | .takes => false
  | .removes => false
  | .constructs => false
  | .places => false
  | _ => true

theorem Op.abides_same {op : Op V α} (hop : op.part.abides = true) :
    op.handles = false ∧ op.leases = false := by
  cases op with
  | user site => cases site <;> first
      | (cases hop; done)
      | exact ⟨rfl, rfl⟩
  | sched op => cases op <;> first
      | (cases hop; done)
      | exact ⟨rfl, rfl⟩
  | _ => exact ⟨rfl, rfl⟩

theorem OfQueue.exec {op : Op V α} {input : Input V} {a : α} (h : OfQueue P)
    (hop : op.handles = false ∧ op.leases = false)
    (hexec : op.exec A input w = some (w', a)) (hw : P w) : P w' :=
  h w w' (Op.items_same hop.left hexec) (Op.lease_same hop.right hexec) hw

/-- An operation that neither changes the queue nor demands anything of it. -/
theorem OfQueue.perform {X : World V -> Prop} (h : OfQueue P) (op : Op V α)
    (hop : op.handles = false ∧ op.leases = false)
    (hdemands : forall w, P w -> LeaseDemands heed op w) :
    Keeps (leaseDiscipline V A heed) P X (Prog.perform op) := by
  intro w hw
  apply wp.op h.stable hw
  intro w _ hw
  refine ⟨hdemands w hw, ?_⟩
  intro input w' a _ hexec _
  exact h.exec hop (machine_exec hexec) hw

theorem OfQueue.keeps {parts : List Part} (h : OfQueue P)
    (hparts : parts.all Part.abides = true)
    (hdemands : forall {α : Type} (op : Op V α),
      parts.contains op.part = true -> forall w, P w -> LeaseDemands heed op w) :
    (repertoire V parts).Keeps (leaseDiscipline V A heed) P where
  stable := h.stable
  op := by
    intro β op hop w _ hw
    refine ⟨hdemands op hop w hw, ?_⟩
    intro input w' b _ hexec _
    have habides : op.part.abides = true :=
      List.all_eq_true.mp hparts _ (List.contains_iff_mem.mp hop)
    exact ⟨h.exec (Op.abides_same habides) (machine_exec hexec) hw, trivial⟩

end Steps

/-!
## Demands
-/

theorem demands_of_free {op : Op V α} (h : w.sched.lease = none) :
    LeaseDemands heed op w := by
  have hnever : forall key, w.sched.lease ≠ some key := by
    intro key hheld
    rw [h] at hheld
    cases hheld
  cases op with
  | user site => exact fun key hheld => absurd hheld (hnever key)
  | mail op =>
      cases op with
      | beginDispatch envelope => exact h
      | _ => trivial
  | pollNotified => exact fun key hheld => absurd hheld (hnever key)
  | _ => trivial

/-- Parts that may run whoever holds the lease. -/
def Part.meek : Part -> Bool
  | .constructs => false
  | .polls => false
  | .hook => false
  | .stop => false
  | .receives => false
  | .parks => false
  | _ => true

theorem Part.meek_demands {op : Op V α} (hop : op.part.meek = true) :
    LeaseDemands heed op w := by
  cases op with
  | user site => cases site <;> first
      | (cases hop; done)
      | exact fun _ _ => trivial
  | mail op => cases op <;> first
      | (cases hop; done)
      | trivial
  | pollNotified => cases hop
  | _ => trivial

/-- Parts that may run whichever reply of the queue holds the lease. -/
def Part.civil : Part -> Bool
  | .constructs => false
  | .polls => false
  | .hook => false
  | .stop => false
  | .receives => false
  | _ => true

theorem Leased.demands {op : Op V α} (h : Leased A heed w)
    (hop : op.part.civil = true) : LeaseDemands heed op w := by
  cases op with
  | user site => cases site <;> first
      | (cases hop; done)
      | exact fun _ _ => trivial
  | mail op => cases op <;> first
      | (cases hop; done)
      | trivial
  | pollNotified => exact h.seated
  | _ => trivial

/-- Parts that leave the queue alone and ask nothing of the lease. -/
theorem OfQueue.keepsMeek {P : World V -> Prop} {parts : List Part}
    (h : OfQueue P)
    (hparts : parts.all (fun part => part.abides && part.meek) = true) :
    (repertoire V parts).Keeps (leaseDiscipline V A heed) P := by
  have hall := List.all_eq_true.mp hparts
  apply h.keeps
  · apply List.all_eq_true.mpr
    exact fun part hmem => (Bool.and_eq_true_iff.mp (hall part hmem)).left
  · intro α op hop w _
    apply Part.meek_demands
    exact (Bool.and_eq_true_iff.mp
      (hall _ (List.contains_iff_mem.mp hop))).right

theorem vacant_keeps {parts : List Part}
    (hparts : parts.all Part.abides = true) :
    (repertoire V parts).Keeps (leaseDiscipline V A heed) (Vacant heed) :=
  Vacant.ofQueue.keeps hparts fun _ _ _ hw => demands_of_free hw.lease

theorem leased_keeps {parts : List Part}
    (hparts : parts.all (fun part => part.abides && part.civil) = true) :
    (repertoire V parts).Keeps (leaseDiscipline V A heed) (Leased A heed) := by
  have hall := List.all_eq_true.mp hparts
  apply Leased.ofQueue.keeps
  · apply List.all_eq_true.mpr
    exact fun part hmem => (Bool.and_eq_true_iff.mp (hall part hmem)).left
  · intro α op hop w hw
    apply hw.demands
    exact (Bool.and_eq_true_iff.mp
      (hall _ (List.contains_iff_mem.mp hop))).right

/-!
## User code with an access handle
-/

/-- User code takes and drops the lease of its own reply only. -/
theorem Op.user_lease (site : UserSite) {input : Input V} {step : UserStep V}
    (hcx : site.cx = some key)
    (hexec : (Op.user site).exec A input w = some (w', step))
    (h : w.sched.lease = none ∨ w.sched.lease = some key) :
    w'.sched.lease = none ∨ w'.sched.lease = some key := by
  have hschedules := Op.user_schedules hexec
  revert hschedules
  generalize w'.sched = sched'
  intro hschedules
  cases hschedules with
  | nothing step _ => exact h
  | acquired other hother =>
      rw [hcx] at hother
      cases hother
      exact Or.inr rfl
  | released other _ => exact Or.inl rfl
  | returned other value _ => exact h

/-- User code that polls no reply leaves what is known about its own reply. -/
theorem Own.user (site : UserSite) {input : Input V} {step : UserStep V}
    (hcx : site.cx = some key) (hpolls : (Op.user site : Op V _).handles = false)
    (hexec : (Op.user site).exec A input w = some (w', step))
    (h : Own heed key late w) : Own heed key late w' where
  lease := Op.user_lease site hcx hexec h.lease
  awaiting := by
    intro hheed
    unfold Awaiting
    rw [Op.items_same hpolls hexec]
    exact h.awaiting hheed

/-- The lease is the one of the reply whose user code runs. -/
theorem Own.demands (site : UserSite) (hshares : site.Shares key)
    (h : Own heed key late w) :
    LeaseDemands heed (Op.user site : Op V (UserStep V)) w := by
  intro other hheld
  cases h.lease with
  | inl hfree =>
      rw [hfree] at hheld
      cases hheld
  | inr hown =>
      rw [hown] at hheld
      cases hheld
      exact hshares

end Loac

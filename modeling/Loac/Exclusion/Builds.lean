import Loac.Exclusion.Exclusive
import Loac.Interleave.Shadow

/-!
# Debug and release builds

A release build stores into the slot of the lease without looking at it.  A
debug build compares before it stores, and panics where it finds another reply
than it expects.  Both record the same holder as long as a reply takes its
guard only when the slot is free.  While replies are polled and handlers are
constructed, exclusion sees to that, unless the reply has leaked a guard.
-/

namespace Loac

open Interleave Interleave.Prog

variable {V α : Type} {A : ActorConfig} {w w' : World V} {key : Key}

/-!
## The slot
-/

namespace Lease

/-- Records one exclusive holder.  There is no result where it panics. -/
def acquire (debug : Bool) (holder : Option Key) (key : Key) :
    Option (Option Key) :=
  if debug then
    -- `compare_exchange` expects a free slot.
    if holder = none then some (some key) else none
  else
    some (some key)

def release (debug : Bool) (holder : Option Key) (key : Key) :
    Option (Option Key) :=
  if debug then
    if holder = some key ∨ holder = none then some none else none
  else
    some none

/-- Clears the slot after its holder leaves the queue. -/
def forceRelease (_ : Option Key) : Option Key :=
  none

end Lease

/-!
## The shadow of a debug build
-/

structure Build where
  /-- The slot, unless one of its assertions has panicked. -/
  slot : Option (Option Key)
  /-- The reply took a guard and did not drop it, and is not gone yet. -/
  guarded : Key -> Bool

namespace Build

def new : Build where
  slot := some none
  guarded := fun _ => false

def acquire (build : Build) (key : Key) : Build where
  slot := build.slot.bind fun holder => Lease.acquire true holder key
  guarded := Function.update build.guarded key true

def release (build : Build) (key : Key) : Build where
  slot := build.slot.bind fun holder => Lease.release true holder key
  guarded := Function.update build.guarded key false

def forceRelease (build : Build) (holder : Option Key) : Build where
  slot := build.slot.map Lease.forceRelease
  guarded := fun key => build.guarded key && holder ≠ some key

/-- What a debug build does where a release build takes a step. -/
def follow : {α : Type} -> Op V α -> Input V -> World V -> Build -> Build
  | _, .user site, .user .acquireLease, _, build =>
      match site.cx with
      | some key => build.acquire key
      | none => build
  | _, .user site, .user .releaseLease, _, build =>
      match site.cx with
      | some key => build.release key
      | none => build
  | _, .sched .forceRelease, _, w, build => build.forceRelease w.sched.lease
  | _, _, _, _, build => build

end Build

abbrev bothBuilds (V : Type) (A : ActorConfig) :
    Machine (Op V) (World V × Build) (Input V) EnvAct Unit :=
  (machine V A).shadowed Build.follow

def bothInitial (V : Type) (A : ActorConfig) :
    Config (Op V) (World V × Build) Unit where
  state := (.new V, .new)
  prog := lifetime A

def UserSite.isReplyDrop : UserSite -> Bool
  | .replyDrop _ _ => true
  | _ => false

def DropsOwn : {α : Type} -> Op V α -> Input V -> World V × Build -> Prop
  | _, .user site, .user .releaseLease, s =>
      forall key, site.cx = some key -> s.2.guarded key = true
  | _, _, _, _ => True

/--
No reply takes a guard after it leaked one, and no destructor takes a guard
while another reply holds the lease.
-/
def TakesFresh : {α : Type} -> Op V α -> Input V -> World V × Build -> Prop
  | _, .user site, .user .acquireLease, s =>
      forall key, site.cx = some key -> s.2.guarded key = false ∧
        (site.isReplyDrop = true ->
          forall other, s.1.sched.lease = some other -> other = key)
  | _, _, _, _ => True

/-- Both builds record the same holder, which has the only guard. -/
structure Agreeing (s : World V × Build) : Prop where
  slot : s.2.slot = some s.1.sched.lease
  guarded : forall key, s.2.guarded key = true <-> s.1.sched.lease = some key

/-- The runs of safe code that takes fresh guards. -/
def buildDiscipline (V : Type) (A : ActorConfig) :
    Discipline (bothBuilds V A) where
  inv := Agreeing
  admits := fun op input s => DropsOwn op input s ∧ TakesFresh op input s
  tolerates := fun _ _ => True
  demands := fun op s => LeaseDemands False op s.1

theorem Agreeing.same {build : Build} (h : Agreeing (w, build))
    (hlease : w'.sched.lease = w.sched.lease) : Agreeing (w', build) where
  slot := by
    rw [hlease]
    exact h.slot
  guarded := by
    rw [hlease]
    exact h.guarded

theorem Agreeing.acquire {build : Build} (h : Agreeing (w, build))
    (hfree : w.sched.lease = none) (hlease : w'.sched.lease = some key) :
    Agreeing (w', build.acquire key) where
  slot := by
    show build.slot.bind _ = _
    rw [h.slot, hlease]
    show Lease.acquire true w.sched.lease key = _
    rw [hfree]
    rfl
  guarded := by
    intro other
    show Function.update build.guarded key true other = true <-> _
    rw [hlease]
    by_cases heq : other = key
    · rw [heq, Function.update_self]
      simp
    · rw [Function.update_of_ne heq, h.guarded other, hfree]
      simp [Ne.symm heq]

theorem Agreeing.release {build : Build} (h : Agreeing (w, build))
    (hguarded : build.guarded key = true) (hlease : w'.sched.lease = none) :
    Agreeing (w', build.release key) where
  slot := by
    have hheld : w.sched.lease = some key := (h.guarded key).mp hguarded
    show build.slot.bind _ = _
    rw [h.slot, hlease]
    show Lease.release true w.sched.lease key = _
    rw [hheld]
    simp [Lease.release]
  guarded := by
    intro other
    have hheld : w.sched.lease = some key := (h.guarded key).mp hguarded
    show Function.update build.guarded key false other = true <-> _
    rw [hlease]
    by_cases heq : other = key
    · rw [heq, Function.update_self]
      simp
    · rw [Function.update_of_ne heq, h.guarded other, hheld]
      simp [Ne.symm heq]

theorem Agreeing.forceRelease {build : Build} (h : Agreeing (w, build))
    (hlease : w'.sched.lease = none) :
    Agreeing (w', build.forceRelease w.sched.lease) where
  slot := by
    show build.slot.map _ = _
    rw [h.slot, hlease]
    rfl
  guarded := by
    intro other
    show (build.guarded other && _) = true <-> _
    rw [hlease, Bool.and_eq_true, h.guarded other]
    simp

theorem TakesFresh.free {site : UserSite} {s : World V × Build}
    (h : TakesFresh (.user site) (.user .acquireLease) s) (hs : Agreeing s)
    (hdemands : LeaseDemands False (Op.user site : Op V _) s.1)
    (hcx : site.cx = some key) : s.1.sched.lease = none := by
  rcases h key hcx with ⟨hfresh, hdrop⟩
  cases hlease : s.1.sched.lease with
  | none => rfl
  | some other =>
      have hshares := hdemands other hlease
      have hown : other = key := by
        cases site with
        | construct key' =>
            injection hcx with heq
            exact hshares.symm.trans heq
        | replyPoll key' =>
            injection hcx with heq
            exact hshares.symm.trans heq
        | replyDrop key' cleared => exact hdrop rfl other hlease
        | _ => cases hcx
      rw [hown] at hlease
      rw [(hs.guarded key).mpr hlease] at hfresh
      cases hfresh

/-- Whether user code takes a guard or drops one. -/
def UserAct.guards : UserAct V -> Bool
  | .acquireLease => true
  | .releaseLease => true
  | _ => false

/-- User code that neither takes nor drops a guard leaves the slot alone. -/
theorem World.userStep_idle {site : UserSite} {act : UserAct V}
    {step : UserStep V} (hact : act.guards = false)
    (h : w.userStep A site act = some (w', step)) :
    w'.sched.lease = w.sched.lease := by
  cases act with
  | acquireLease => cases hact
  | releaseLease => cases hact
  | spawnChild =>
      unfold World.userStep at h
      dsimp only at h
      split at h
      · cases h
        rfl
      · cases h
  | panics =>
      cases h
      rfl
  | returns value =>
      cases h
      show (w.recordReturn site value).sched.lease = _
      unfold World.recordReturn
      split <;> rfl

theorem Agreeing.user {site : UserSite} {act : UserAct V} {step : UserStep V}
    {build : Build} (h : Agreeing (w, build))
    (hdemands : LeaseDemands False (Op.user site : Op V (UserStep V)) w)
    (hdrops : DropsOwn (Op.user site) (.user act) (w, build))
    (htakes : TakesFresh (Op.user site) (.user act) (w, build))
    (hexec : w.userStep A site act = some (w', step)) :
    Agreeing (w', Build.follow (Op.user site) (.user act) w build) := by
  cases act with
  | acquireLease =>
      unfold World.userStep at hexec
      cases hcx : site.cx with
      | none =>
          simp only [hcx] at hexec
          cases hexec
      | some key =>
          have hfree := htakes.free h hdemands hcx
          simp only [hcx] at hexec
          cases hexec
          simp only [Build.follow, hcx]
          exact h.acquire hfree rfl
  | releaseLease =>
      unfold World.userStep at hexec
      cases hcx : site.cx with
      | none =>
          simp only [hcx] at hexec
          cases hexec
      | some key =>
          have hguarded := hdrops key hcx
          simp only [hcx] at hexec
          cases hexec
          simp only [Build.follow, hcx]
          exact h.release hguarded rfl
  | _ => exact h.same (World.userStep_idle rfl hexec)

theorem build_lawful : (buildDiscipline V A).Lawful where
  actor := by
    intro α op input s s' a hinv hdemands hadmits hexec
    rcases s with ⟨w, build⟩
    rcases s' with ⟨w', build'⟩
    rcases Machine.shadowed_exec hexec with ⟨hbase, hbuild⟩
    change build' = Build.follow op input w build at hbuild
    subst hbuild
    have hbase : op.exec A input w = some (w', a) := hbase
    cases op with
    | user site =>
        cases input with
        | user act => exact hinv.user hdemands hadmits.left hadmits.right hbase
        | _ => cases hbase
    | sched op =>
        cases op with
        | forceRelease =>
            cases hbase
            exact hinv.forceRelease rfl
        | _ => exact hinv.same (Op.lease_same rfl hbase)
    | _ => exact hinv.same (Op.lease_same rfl hbase)
  env := by
    intro e s s' hinv _ henv
    rcases s with ⟨w, build⟩
    rcases s' with ⟨w', build'⟩
    rcases Machine.shadowed_env henv with ⟨hbase, hbuild⟩
    change build' = build at hbuild
    subst hbuild
    exact hinv.same (EnvAct.lease_exec hbase)

/-- The steps of safe code that takes fresh guards. -/
abbrev FreshGuards (V : Type) (A : ActorConfig) :
    Config (Op V) (World V × Build) Unit -> Event (Input V) EnvAct -> Prop :=
  (buildDiscipline V A).Permits

/--
In every run of safe code in which no reply takes a guard after it leaked one,
and no destructor takes a guard while another reply holds the lease, a debug
build panics at none of its assertions and records the holder that a release
build records.
-/
theorem builds_agree (V : Type) (A : ActorConfig)
    (c : Config (Op V) (World V × Build) Unit)
    (h : Machine.Reaches (bothBuilds V A) (FreshGuards V A) (bothInitial V A) c) :
    c.state.2.slot = some c.state.1.sched.lease := by
  have hinitial : Agreeing (World.new V, Build.new) :=
    ⟨rfl, fun key => by simp [World.new, Sched.new, Build.new]⟩
  have hstart : (buildDiscipline V A).inv (bothInitial V A).state := hinitial
  refine (build_lawful.run hstart ?_ h).slot
  intro α op next s hreach
  have hsafe : Safe (leaseDiscipline V A False) (fun _ _ => True)
      (fun _ => True) ⟨s.1, .act op next⟩ :=
    lease_safe (hreach.erased.weaken fun _ _ _ hno => hno.elim)
  exact hsafe.demands

/-!
## A guard that was leaked
-/

abbrev OwnGuards (V : Type) :
    Config (Op V) (World V × Build) Unit -> Event (Input V) EnvAct -> Prop :=
  fun c event =>
    match event with
    | .env _ => True
    | .actor input =>
        match c.prog with
        | .act op _ => DropsOwn op input c.state
        | _ => True

def keepsGuards (_ : Config (Op Unit) (World Unit × Build) Unit)
    (event : Event (Input Unit) EnvAct) : Bool :=
  match event with
  | .actor (.user .releaseLease) => false
  | _ => true

theorem keepsGuards_own (c : Config (Op Unit) (World Unit × Build) Unit)
    (event : Event (Input Unit) EnvAct) (h : keepsGuards c event = true) :
    OwnGuards Unit c event := by
  unfold OwnGuards
  split
  · trivial
  · split
    · unfold DropsOwn
      split
      · cases h
      · trivial
    · trivial

/-- A handler takes a guard, leaks it, and takes another one. -/
def nestedGuards : Config (Op Unit) (World Unit × Build) Unit :=
  (bothBuilds Unit sociable).stage .next 100
    [.env .reserve, .env (.admitEnvelope .call), .actor (.spawn true),
      silent, ready, silent, silent, acquires, acquires] 0
    (bothInitial Unit sociable)

/-- Safe code, of which a debug build panics where a release build goes on. -/
theorem nestedGuards_disagree :
    Machine.Reaches (bothBuilds Unit sociable) (OwnGuards Unit)
      (bothInitial Unit sociable) nestedGuards ∧
    nestedGuards.state.2.slot = none ∧
      nestedGuards.state.1.sched.lease = some 0 :=
  ⟨Machine.stage_permitted keepsGuards_own (by decide +kernel),
    by decide +kernel, by decide +kernel⟩

def takesFresh (c : Config (Op Unit) (World Unit × Build) Unit)
    (event : Event (Input Unit) EnvAct) : Bool :=
  match event with
  | .actor (.user .releaseLease) => false
  | .actor (.user .acquireLease) =>
      match c.prog with
      | .act (.user (.replyPoll key)) _ => !c.state.2.guarded key
      | .act (.user _) _ => false
      | _ => true
  | _ => true

theorem takesFresh_fresh (c : Config (Op Unit) (World Unit × Build) Unit)
    (event : Event (Input Unit) EnvAct) (h : takesFresh c event = true) :
    FreshGuards Unit sociable c event := by
  rcases c with ⟨s, prog⟩
  cases event with
  | env e => trivial
  | actor input =>
      cases prog with
      | act op next =>
          show DropsOwn op input s ∧ TakesFresh op input s
          cases op with
          | user site =>
              cases input with
              | user act =>
                  cases act with
                  | releaseLease => cases h
                  | acquireLease =>
                      refine ⟨trivial, ?_⟩
                      intro key hcx
                      cases site with
                      | replyPoll key' =>
                          injection hcx with heq
                          rw [← heq]
                          exact ⟨(Bool.not_eq_true' _).mp h, Bool.noConfusion⟩
                      | _ => cases h
                  | _ => exact ⟨trivial, trivial⟩
              | _ => exact ⟨trivial, trivial⟩
          | _ => exact ⟨trivial, trivial⟩
      | _ => trivial

def heldGuard : Config (Op Unit) (World Unit × Build) Unit :=
  (bothBuilds Unit sociable).stage .next 100
    [.env .reserve, .env (.admitEnvelope .call), .actor (.spawn true),
      silent, ready, silent, silent, acquires] 0 (bothInitial Unit sociable)

theorem heldGuard_agrees : heldGuard.state.2.slot = some (some 0) := by
  have hreach : Machine.Reaches (bothBuilds Unit sociable)
      (FreshGuards Unit sociable) (bothInitial Unit sociable) heldGuard :=
    Machine.stage_permitted takesFresh_fresh (by decide +kernel)
  rw [builds_agree Unit sociable heldGuard hreach]
  decide +kernel

end Loac

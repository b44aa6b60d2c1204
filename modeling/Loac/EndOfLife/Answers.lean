import Loac.Containment.Repertoire
import Loac.Hierarchy.Confirmation

/-!
# Answers to shutdown requests

A shutdown request is answered at once, long before the actor ends.  The answer
is a promise: what was requested or in progress decides which reasons the
published status can give, whoever interferes in between.  A graceful mode
excludes the other graceful one, and only a Kill may follow on it.
-/

namespace Loac

open Interleave

variable {V : Type} {A : ActorConfig} {c c' later : ActorState V} {mode : Mode}
  {committed : List Mode}

def Shutdown.Leaves : Shutdown -> ExitReason -> Prop
  | .stop, reason => reason ≠ .drained
  | .drain, reason => reason ≠ .stopped
  | .kill, reason => reason = .killed ∨ reason = .aborted

def ShutdownStatus.Foretells (shutdown : Shutdown) (status : ExitStatus) :
    ShutdownStatus -> Prop
  | .requested => shutdown.Leaves status.reason
  -- A failure reports itself as a Kill that is under way.
  | .inProgress .kill => status.reason.isHard = true
  | .inProgress committed => committed.Leaves status.reason
  | .exited published => status = published

/-!
## What a committed mode leaves
-/

theorem History.running (h : History .running committed) :
    committed = [.running] := by
  cases h with
  | start => rfl
  | advance _ hadvances => exact absurd rfl hadvances.ne_running

theorem History.graceful_once (h : History mode committed)
    (hdraining : .draining ∈ committed) : .stopping ∉ committed := by
  induction h with
  | start => simp at hdraining
  | @advance mode next committed hbefore hadvances ih =>
      intro hstopping
      have hrunning : next.isHard = false -> committed = [.running] := by
        intro hsoft
        rw [hadvances.from_running hsoft] at hbefore
        exact hbefore.running
      rcases List.mem_cons.mp hdraining with hdrain | hdrain
      · rw [hrunning (by rw [← hdrain]; rfl), ← hdrain] at hstopping
        simp at hstopping
      · rcases List.mem_cons.mp hstopping with hstop | hstop
        · rw [hrunning (by rw [← hstop]; rfl)] at hdrain
          simp at hdrain
        · exact ih hdrain hstop

theorem leaves_stopping (hmem : .stopping ∈ committed) :
    Shutdown.stop.Leaves (localReason committed) := by
  unfold Shutdown.Leaves localReason
  simp only [if_pos hmem]
  split
  · simp
  · split
    · simp
    · split <;> simp

theorem leaves_draining (h : History mode committed)
    (hmem : .draining ∈ committed) :
    Shutdown.drain.Leaves (localReason committed) := by
  unfold Shutdown.Leaves localReason
  simp only [if_neg (h.graceful_once hmem)]
  split
  · simp
  · split
    · simp
    · split <;> simp

theorem leaves_killing (hmem : .killing ∈ committed) :
    Shutdown.kill.Leaves (localReason committed) := by
  unfold Shutdown.Leaves localReason
  simp only [if_pos hmem]
  split
  · exact Or.inr rfl
  · exact Or.inl rfl

theorem hard_localReason {past : Mode} (hmem : past ∈ committed)
    (hhard : past.isHard = true) (hopen : past.isExited = false) :
    (localReason committed).isHard = true := by
  unfold localReason
  by_cases haborting : .aborting ∈ committed
  · rw [if_pos haborting]
    rfl
  rw [if_neg haborting]
  by_cases hkilling : .killing ∈ committed
  · rw [if_pos hkilling]
    rfl
  rw [if_neg hkilling]
  have hfailing : .failing ∈ committed := by
    cases past with
    | failing => exact hmem
    | killing => exact absurd hmem hkilling
    | aborting => exact absurd hmem haborting
    | exited status => cases hopen
    | _ => cases hhard
  rw [if_pos hfailing]
  rfl

/-!
## What the answer says at the time
-/

theorem answer_borne_out (h : History mode committed) {before : Mode}
    {shutdown : Shutdown} (hmem : (request before shutdown).1 ∈ committed)
    {status : ExitStatus} (hreason : status.reason = localReason committed)
    (hopen : before.isExited = false) :
    (request before shutdown).2.Foretells shutdown status := by
  have hstop : .stopping ∈ committed -> Shutdown.stop.Leaves status.reason := by
    rw [hreason]
    exact leaves_stopping
  have hdrain : .draining ∈ committed ->
      Shutdown.drain.Leaves status.reason := by
    rw [hreason]
    exact leaves_draining h
  have hkill : .killing ∈ committed -> Shutdown.kill.Leaves status.reason := by
    rw [hreason]
    exact leaves_killing
  have hhard : forall past : Mode, past ∈ committed -> past.isHard = true ->
      past.isExited = false -> status.reason.isHard = true := by
    intro past
    rw [hreason]
    exact hard_localReason
  cases before with
  | exited status => cases hopen
  | running =>
      cases shutdown with
      | stop => exact hstop hmem
      | drain => exact hdrain hmem
      | kill => exact hkill hmem
  | draining =>
      cases shutdown with
      | stop => exact hdrain hmem
      | drain => exact hdrain hmem
      | kill => exact hkill hmem
  | stopping =>
      cases shutdown with
      | stop => exact hstop hmem
      | drain => exact hstop hmem
      | kill => exact hkill hmem
  | killing =>
      have hreason := hhard .killing
      cases shutdown <;> exact hreason hmem rfl rfl
  | failing =>
      have hreason := hhard .failing
      cases shutdown <;> exact hreason hmem rfl rfl
  | aborting =>
      have hreason := hhard .aborting
      cases shutdown <;> exact hreason hmem rfl rfl

theorem requested_upgrade {before : Mode} {shutdown : Shutdown}
    (hne : before ≠ .running)
    (hrequested : (request before shutdown).2 = .requested) :
    shutdown = .kill ∧ before.isHard = false := by
  cases before <;> cases shutdown <;> first
    | exact ⟨rfl, rfl⟩
    | exact absurd rfl hne
    | cases hrequested

theorem requested_soft {before : Mode} {shutdown : Shutdown}
    (hrequested : (request before shutdown).2 = .requested) :
    (request before shutdown).1 ≠ .running ∧
      ((request before shutdown).1.isHard = false -> shutdown ≠ .kill) := by
  cases before <;> cases shutdown <;> simp_all [request, Mode.isHard]

/-!
## Runs
-/

theorem committed_run
    (hrun : Machine.Reaches (machine V A) Machine.Anything c later)
    (hmem : mode ∈ c.state.control.committed) :
    mode ∈ later.state.control.committed := by
  induction hrun with
  | refl => exact hmem
  | step event _ _ hstep ih => exact (step_moves hstep).committed ih

theorem exited_run {status : ExitStatus}
    (hrun : Machine.Reaches (machine V A) Machine.Anything c later)
    (hexited : c.state.control.mode = .exited status) :
    later.state.control.mode = .exited status := by
  induction hrun with
  | refl => exact hexited
  | step event _ _ hstep ih => exact ((step_moves hstep).exited ih).left

theorem left_run (hrun : Machine.Reaches (machine V A) Machine.Anything c later)
    (hleft : c.state.control.mode ≠ .running) :
    later.state.control.mode ≠ .running := by
  induction hrun with
  | refl => exact hleft
  | step event _ _ hstep ih =>
      cases step_moves hstep with
      | stays hmode _ => rwa [hmode]
      | advances hadvances _ => exact hadvances.ne_running

theorem request_step {shutdown : Shutdown}
    (hstep : (machine V A).step c (.env (.request shutdown)) = some c') :
    c'.state.control.mode = (request c.state.control.mode shutdown).1 := by
  cases hstep
  exact Control.commit_mode _ _

/--
Let somebody request a shutdown, and let the actor go on in any way.  If it has
exited later, the answer to the request told what its status can be.  If the
request was accepted and one more is, then that is a Kill on top of a graceful
shutdown, and no mode was committed in between.
-/
theorem answer_foretells_status (A : ActorConfig) (c c' later : ActorState V)
    (shutdown : Shutdown) (hreach : Reachable A c)
    (hstep : (machine V A).step c (.env (.request shutdown)) = some c')
    (hrun : Machine.Reaches (machine V A) Machine.Anything c' later) :
    (forall status, later.state.control.mode = .exited status ->
      (request c.state.control.mode shutdown).2.Foretells shutdown status) ∧
    ((request c.state.control.mode shutdown).2 = .requested ->
      forall shutdown',
        (request later.state.control.mode shutdown').2 = .requested ->
          shutdown' = .kill ∧ shutdown ≠ .kill ∧
            later.state.control.mode = c'.state.control.mode) := by
  have hmode := request_step hstep
  have hreach' : Reachable A c' :=
    .step (.env (.request shutdown)) hreach trivial hstep
  have hlater : Reachable A later := hreach'.trans hrun
  have hinv' : LifeInv A .any c'.state := (reachable_safe hreach').inv
  have hinv : LifeInv A .any later.state := (reachable_safe hlater).inv
  have hmem : (request c.state.control.mode shutdown).1 ∈
      later.state.control.committed := by
    apply committed_run hrun
    rw [← hmode]
    exact hinv'.history.recorded
  constructor
  · intro status hexited
    cases hopen : c.state.control.mode.isExited with
    | false =>
        exact answer_borne_out hinv.history hmem
          (hinv.ended status hexited).reason hopen
    | true =>
        rcases Mode.isExited_iff.mp hopen with ⟨published, hpublished⟩
        rw [hpublished] at hmode ⊢
        have hsame := exited_run hrun (hmode.trans (by cases shutdown <;> rfl))
        rw [hexited] at hsame
        cases hsame
        cases shutdown <;> exact rfl
  · intro hrequested shutdown' hrequested'
    rcases requested_soft hrequested with ⟨hleft, hgraceful⟩
    rw [← hmode] at hleft hgraceful
    have hupgrade := requested_upgrade (left_run hrun hleft) hrequested'
    have hpast := hinv.history.past hmem (by rwa [← hmode])
    rw [← hmode, hupgrade.right] at hpast
    have hsame : later.state.control.mode = c'.state.control.mode :=
      hpast.resolve_right (by simp)
    refine ⟨hupgrade.left, hgraceful ?_, hsame⟩
    rw [← hsame]
    exact hupgrade.right

/-- A Stop is requested in `init`, and then a Kill as well. -/
def stoppedInInit : ActorState Unit :=
  (machine Unit solitary).stage .next 40
    [.actor (.spawn true), .actor (.user (.returns none))] 40
    (initial Unit solitary)

def stopRequested : ActorState Unit :=
  (machine Unit solitary).stage .next 0 [.env (.request .stop)] 0 stoppedInInit

def upgradedInInit : ActorState Unit :=
  (machine Unit solitary).stage .next 40
    [.env (.request .kill), .actor (.user (.returns none)),
      .actor (.user (.returns none))] 40 stopRequested

/-- The statement applies to a Stop that a Kill overtakes. -/
theorem upgradedInInit_foretold :
    (request stoppedInInit.state.control.mode .stop).2 = .requested ∧
      upgradedInInit.state.control.mode =
        .exited (.new .killed .terminated) ∧
      ShutdownStatus.requested.Foretells .stop (.new .killed .terminated) := by
  have hreach : Reachable solitary stoppedInInit :=
    Machine.stage_reaches (fun _ => trivial) (fun _ _ _ => trivial) _ _ _
  have hrun : Machine.Reaches (machine Unit solitary) Machine.Anything
      stopRequested upgradedInInit :=
    Machine.stage_reaches (fun _ => trivial) (fun _ _ _ => trivial) _ _ _
  have hexited : upgradedInInit.state.control.mode =
      .exited (.new .killed .terminated) := by decide +kernel
  have hstep : (machine Unit solitary).step stoppedInInit
      (.env (.request .stop)) = some stopRequested := rfl
  have hrequested :
      (request stoppedInInit.state.control.mode .stop).2 = .requested := by
    decide +kernel
  have hforetold := (answer_foretells_status solitary stoppedInInit
    stopRequested upgradedInInit .stop hreach hstep hrun).left _ hexited
  rw [hrequested] at hforetold
  exact ⟨hrequested, hexited, hforetold⟩

end Loac

import Loac.Course.Sequence
import Loac.Supervision.Ledger

/-!
# The ledger of a parent

In every run the registrations are accounted for, and the hook of a child is
entered at most once, after its slot was released, and only if the gate let it
begin.
-/

namespace Loac

open Interleave

variable {V α : Type} {A : ActorConfig} {w w' : World V}
  {course : List Entry} {child : Key}

/-!
## Registrations
-/

/-- The children that were reaped, the latest first. -/
def reapedKeys : List Entry -> List Key
  | [] => []
  | .reaped child :: rest => child :: reapedKeys rest
  | _ :: rest => reapedKeys rest

def Ledger (A : ActorConfig) (w : World V) : Prop :=
  w.kin.Exact (A.children.getD none) (reapedKeys w.life.course)

theorem reapedKeys_noteKin (life : Life) (op : KinOp α) (a : α) :
    reapedKeys (life.noteKin op a).course = op.reaps a ++ reapedKeys life.course := by
  cases op with
  | reap event => cases a <;> rfl
  | _ => rfl

theorem EnvAct.ledger_exec {e : EnvAct} (h : e.exec A w = some w')
    (hledger : Ledger A w) : Ledger A w' := by
  unfold Ledger
  rw [EnvAct.life_exec h]
  cases e with
  | child key act =>
      rw [EnvAct.exec] at h
      by_cases hlt : key < w.kin.next
      · rw [if_pos hlt] at h
        cases h
        exact Kin.Exact.advance hledger (act.next_advances _)
      · rw [if_neg hlt] at h
        cases h
  | childPublish key =>
      rw [EnvAct.exec] at h
      by_cases hlt : key < w.kin.next
      · rw [if_pos hlt] at h
        rcases Option.map_eq_some_iff.mp h with ⟨kin, hpublish, hw'⟩
        subst hw'
        exact Kin.Exact.publish hledger hlt hpublish
      · rw [if_neg hlt] at h
        cases h
  | _ =>
      have hkin : w'.kin = w.kin := by
        grind [EnvAct.exec, World.transact, World.wakeIf,
          Option.map_eq_some_iff]
      rw [hkin]
      exact hledger

theorem World.userStep_ledger {site : UserSite} {act : UserAct V}
    {step : UserStep V} (h : w.userStep A site act = some (w', step))
    (hledger : Ledger A w) : Ledger A w' := by
  have hcourse : reapedKeys w'.life.course = reapedKeys w.life.course := by
    rw [World.userStep_course h]
    rfl
  unfold Ledger
  rw [hcourse]
  cases act with
  | spawnChild =>
      rw [World.userStep] at h
      split at h
      · rename_i limit hchildren _
        cases h
        unfold Ledger at hledger
        rw [hchildren] at hledger ⊢
        have hspawn := ActorScope.spawnChild_eq limit w.kin () ()
        by_cases hfull : w.kin.AtLimit limit
        · rw [hspawn.left hfull]
          exact hledger
        · rw [hspawn.right hfull]
          exact hledger.spawn (Kin.room_of_not_atLimit hfull)
      · cases h
  | _ =>
      have hkin : w'.kin = w.kin := by
        grind [World.userStep, World.kin_recordReturn]
      rw [hkin]
      exact hledger

theorem Op.ledger_exec {op : Op V α} {input : Input V} {a : α}
    (h : op.exec A input w = some (w', a)) (hledger : Ledger A w) :
    Ledger A w' := by
  cases op with
  | user site =>
      cases input with
      | user act => exact World.userStep_ledger h hledger
      | _ => cases h
  | kin op =>
      cases h
      unfold Ledger
      rw [reapedKeys_noteKin]
      exact op.exec_exact _ hledger
  | transact t =>
      cases h
      have hcourse : reapedKeys (w.life.noteTransaction t (w.transact t).2).course =
          reapedKeys w.life.course := by
        cases t <;> rfl
      unfold Ledger
      rw [Life.invoke_course, hcourse]
      exact hledger
  | spawn =>
      rw [Op.spawn_exec h]
      exact hledger
  | _ =>
      have hsame : w'.kin = w.kin ∧ w'.life.course = w.life.course := by
        grind [Op.exec, World.wakeIf]
      unfold Ledger
      rw [hsame.left, hsame.right]
      exact hledger

theorem ledger_reachable {c : ActorState V} (h : Reachable A c) :
    Ledger A c.state := by
  induction h with
  | refl => exact Kin.new_exact _
  | step event _ _ hstep ih =>
      cases Machine.effect_of_step hstep with
      | nothing hsame =>
          rw [hsame]
          exact ih
      | actor op next input a _ hexec => exact Op.ledger_exec hexec ih
      | env e henv => exact EnvAct.ledger_exec henv ih

/-!
## Hooks
-/

/-- The gate was asked right after the child was reaped, and gave its answer. -/
def gated (child : Key) (opened : Bool) : List Entry -> Nat
  | [] => 0
  | entry :: rest =>
      if entry = .hookGate opened ∧ rest.head? = some (.reaped child) then
        gated child opened rest + 1
      else
        gated child opened rest

def Entry.polls (child : Key) : Entry -> Bool
  | .user (.hookPoll child') _ => child' = child
  | _ => false

def hookEntries (child : Key) : List Entry -> Nat
  | [] => 0
  | entry :: rest =>
      if entry.polls child ∧ rest.head?.any (Entry.polls child) = false then
        hookEntries child rest + 1
      else
        hookEntries child rest

/-- The gate answers at most once for each release of a registration. -/
theorem gated_le_reaped (child : Key) (course : List Entry) :
    gated child true course + gated child false course +
      (if course.head? = some (.reaped child) then 1 else 0) <=
        (reapedKeys course).count child := by
  induction course with
  | nil => exact Nat.le_refl 0
  | cons entry rest ih =>
      cases entry with
      | user site outcome => simpa [gated, reapedKeys] using by omega
      | reaped child' =>
          by_cases heq : child' = child
          · subst heq
            simp [gated, reapedKeys]
            omega
          · simp [gated, reapedKeys, heq]
            omega
      | hookGate opened =>
          by_cases hhead : rest.head? = some (.reaped child)
          · rw [if_pos hhead] at ih
            cases opened <;> simp [gated, reapedKeys, hhead] <;> omega
          · rw [if_neg hhead] at ih
            simp [gated, reapedKeys, hhead]
            omega

structure Phase.HookStep (phase phase' : Phase) (entry : Entry) : Prop where
  released : forall child, phase' = .released child -> entry = .reaped child
  admitted : forall child, phase' = .admitted child ->
    entry = .hookGate true ∧ phase = .released child
  hooking : forall child, phase' = .hooking child ->
    entry.polls child = true
  polled : forall child, entry.polls child = true ->
    phase = .admitted child ∨ phase = .hooking child

theorem Phase.hookStep_of_lax {phase phase' : Phase} {entry : Entry}
    (hpolls : forall child, entry.polls child = false)
    (h : phase'.lax = true ∨ phase' = .calling ∨
      exists shutdown, phase' = .shutting shutdown) :
    phase.HookStep phase' entry := by
  constructor
  · intro child heq
    subst heq
    rcases h with h | h | ⟨_, h⟩ <;> cases h
  · intro child heq
    subst heq
    rcases h with h | h | ⟨_, h⟩ <;> cases h
  · intro child heq
    subst heq
    rcases h with h | h | ⟨_, h⟩ <;> cases h
  · intro child hpoll
    rw [hpolls child] at hpoll
    cases hpoll

theorem Phase.retire_lax {phase phase' : Phase} {site : UserSite}
    (h : phase.retire site = some phase') : phase'.lax = true := by
  unfold Phase.retire at h
  split at h
  · split at h <;> cases h
    rfl
  · split at h <;> cases h
    rfl
  · split at h
    · cases h
      assumption
    · cases h

theorem Phase.hookStep {phase phase' : Phase} {entry : Entry}
    (h : phase.step entry = some phase') : phase.HookStep phase' entry := by
  cases entry with
  | reaped child =>
      cases phase with
      | running =>
          cases h
          constructor
          · intro child' heq
            cases heq
            rfl
          · exact fun _ heq => by cases heq
          · exact fun _ heq => by cases heq
          · exact fun _ hpoll => by cases hpoll
      | ending shutdown =>
          cases h
          exact hookStep_of_lax (fun _ => rfl) (Or.inl rfl)
      | _ => cases h
  | hookGate opened =>
      cases phase with
      | released child =>
          cases opened with
          | true =>
              cases h
              constructor
              · exact fun _ heq => by cases heq
              · intro child' heq
                cases heq
                exact ⟨rfl, rfl⟩
              · exact fun _ heq => by cases heq
              · exact fun _ hpoll => by cases hpoll
          | false =>
              cases h
              exact hookStep_of_lax (fun _ => rfl) (Or.inl rfl)
      | ending shutdown =>
          cases opened with
          | true => cases h
          | false =>
              cases h
              exact hookStep_of_lax (fun _ => rfl) (Or.inl rfl)
      | _ => cases opened <;> cases h
  | user site outcome =>
      change phase.user site outcome = some phase' at h
      cases site with
      | hookPoll child =>
          change phase.hook child outcome = some phase' at h
          unfold Phase.hook at h
          split at h
          case isFalse => cases h
          case isTrue hphase =>
            have hresult : phase' = .hooking child ∨ phase' = .running := by
              cases outcome <;> cases h <;> simp
            have hpolled : forall child',
                (Entry.user (.hookPoll child) outcome).polls child' = true ->
                  phase = .admitted child' ∨ phase = .hooking child' := by
              intro child' hpoll
              have heq := of_decide_eq_true hpoll
              rw [← heq]
              exact hphase
            rcases hresult with hresult | hresult
            · subst hresult
              refine ⟨fun _ heq => (by cases heq), fun _ heq => (by cases heq),
                ?_, hpolled⟩
              intro child' heq
              cases heq
              exact decide_eq_true rfl
            · subst hresult
              exact ⟨fun _ heq => (by cases heq), fun _ heq => (by cases heq),
                fun _ heq => (by cases heq), hpolled⟩
      | initCall =>
          change phase.initCall outcome = some phase' at h
          unfold Phase.initCall at h
          split at h
          · cases outcome <;> cases h <;>
              exact hookStep_of_lax (fun _ => rfl) (by simp [lax])
          · cases h
      | initPoll =>
          change phase.initPoll outcome = some phase' at h
          unfold Phase.initPoll at h
          split at h
          · cases outcome <;> cases h <;>
              exact hookStep_of_lax (fun _ => rfl) (by simp [lax])
          · cases h
      | onShutdown shutdown =>
          change phase.onShutdown shutdown outcome = some phase' at h
          unfold Phase.onShutdown at h
          split at h
          · cases outcome <;> cases h <;>
              exact hookStep_of_lax (fun _ => rfl) (by simp [lax])
          · cases h
      | stopPoll reason =>
          change phase.stopPoll reason outcome = some phase' at h
          unfold Phase.stopPoll at h
          split at h
          · cases outcome <;> cases h <;>
              exact hookStep_of_lax (fun _ => rfl) (by simp [lax])
          · cases h
      | construct key =>
          have hconstructs : phase.constructs = true ∧ phase = phase' := by
            change (if phase.constructs then some phase else none) = _ at h
            split at h
            · cases h
              exact ⟨by assumption, rfl⟩
            · cases h
          apply hookStep_of_lax (fun _ => rfl)
          rw [← hconstructs.right]
          cases phase <;> first
            | exact Or.inl rfl
            | cases hconstructs.left
      | replyPoll key =>
          have hpolls : phase.polls = true ∧ phase = phase' := by
            change (if phase.polls then some phase else none) = _ at h
            split at h
            · cases h
              exact ⟨by assumption, rfl⟩
            · cases h
          apply hookStep_of_lax (fun _ => rfl)
          rw [← hpolls.right]
          cases phase <;> first
            | exact Or.inl rfl
            | cases hpolls.left
      | _ => exact hookStep_of_lax (fun _ => rfl) (Or.inl (retire_lax h))

theorem Phase.after_step {entry : Entry} {rest : List Entry} {phase : Phase}
    (h : Phase.after (entry :: rest) = some phase) :
    exists before, Phase.after rest = some before ∧
      before.step entry = some phase :=
  Option.bind_eq_some_iff.mp h

theorem head_of_hooking (h : Phase.after course = some (.hooking child)) :
    course.head?.any (Entry.polls child) = true := by
  cases course with
  | nil => cases h
  | cons entry rest =>
      rcases Phase.after_step h with ⟨before, _, hstep⟩
      exact (Phase.hookStep hstep).hooking child rfl

theorem head_of_released (h : Phase.after course = some (.released child)) :
    course.head? = some (.reaped child) := by
  cases course with
  | nil => cases h
  | cons entry rest =>
      rcases Phase.after_step h with ⟨before, _, hstep⟩
      exact congrArg some ((Phase.hookStep hstep).released child rfl)

theorem hookEntries_le_gated {phase : Phase}
    (h : Phase.after course = some phase) (child : Key) :
    hookEntries child course + (if phase = .admitted child then 1 else 0) <=
      gated child true course := by
  induction course generalizing phase with
  | nil =>
      cases h
      exact Nat.le_refl 0
  | cons entry rest ih =>
      rcases Phase.after_step h with ⟨before, hbefore, hstep⟩
      have hhook := Phase.hookStep hstep
      have ih := ih hbefore
      unfold hookEntries gated
      by_cases hpolls : entry.polls child = true
      · -- A poll of the hook enters it only right after the gate opened.
        have hentry : entry ≠ .hookGate true := by
          intro heq
          rw [heq] at hpolls
          cases hpolls
        have hphase : phase ≠ .admitted child := by
          intro heq
          exact hentry (hhook.admitted child heq).left
        simp only [hpolls, hentry, hphase, true_and, false_and, if_false]
        cases hhook.polled child hpolls with
        | inl hadmitted =>
            rw [if_pos hadmitted] at ih
            split <;> omega
        | inr hhooking =>
            rw [hhooking] at hbefore
            have hhead := head_of_hooking hbefore
            simp only [hhead, Bool.true_eq_false, if_false]
            omega
      · have hpolls : entry.polls child = false := by simpa using hpolls
        simp only [hpolls, Bool.false_eq_true, false_and, if_false]
        by_cases hphase : phase = .admitted child
        · have hadmitted := hhook.admitted child hphase
          rw [hadmitted.right] at hbefore
          have hhead := head_of_released hbefore
          rw [if_pos hphase, if_pos ⟨hadmitted.left, hhead⟩]
          omega
        · rw [if_neg hphase]
          split <;> omega

/-- Who lost the cutoff is not called back, and nobody is called back twice. -/
theorem hookEntries_once {c : ActorState V} (h : Reachable A c) (child : Key) :
    hookEntries child c.state.life.course +
      gated child false c.state.life.course <= 1 := by
  have hordered := (course_safe h).inv.ordered
  rcases Option.isSome_iff_exists.mp hordered with ⟨phase, hphase⟩
  have hentries := hookEntries_le_gated hphase child
  have hgated := gated_le_reaped child c.state.life.course
  have honce := List.nodup_iff_count_le_one.mp
    (ledger_reachable h).reaped_nodup child
  omega

def Phase.exiting : Phase -> Option Key
  | .released child => some child
  | .admitted child => some child
  | .hooking child => some child
  | _ => none

theorem reaped_of_exiting {phase : Phase}
    (h : Phase.after course = some phase)
    (hexiting : phase.exiting = some child) : child ∈ reapedKeys course := by
  induction course generalizing phase with
  | nil =>
      cases h
      cases hexiting
  | cons entry rest ih =>
      rcases Phase.after_step h with ⟨before, hbefore, hstep⟩
      have hhook := Phase.hookStep hstep
      have hrest : before.exiting = some child ->
          child ∈ reapedKeys (entry :: rest) := by
        intro hexiting
        have hmem := ih hbefore hexiting
        cases entry with
        | reaped child' => exact List.mem_cons_of_mem _ hmem
        | _ => exact hmem
      cases phase with
      | released child' =>
          cases hexiting
          rw [hhook.released child rfl]
          exact List.mem_cons_self ..
      | admitted child' =>
          cases hexiting
          apply hrest
          rw [(hhook.admitted child rfl).right]
          rfl
      | hooking child' =>
          cases hexiting
          apply hrest
          cases hhook.polled child (hhook.hooking child rfl) with
          | inl hadmitted =>
              rw [hadmitted]
              rfl
          | inr hhooking =>
              rw [hhooking]
              rfl
      | _ => cases hexiting

theorem reaped_at_hook {c : ActorState V} (h : Reachable A c)
    (hsite : userAt c = some (.hookPoll child)) :
    child ∈ reapedKeys c.state.life.course := by
  have hsafe := course_safe h
  rcases c with ⟨w, prog⟩
  cases prog with
  | act op next =>
      cases op with
      | user site =>
          cases hsite
          have hinOrder := hsafe.demands.left .ready
          rcases Option.isSome_iff_exists.mp hinOrder with ⟨phase', hstep⟩
          rcases Option.bind_eq_some_iff.mp hstep with
            ⟨phase, hphase, hstep⟩
          apply reaped_of_exiting hphase
          cases (Phase.hookStep hstep).polled child (decide_eq_true rfl) with
          | inl hadmitted =>
              rw [hadmitted]
              rfl
          | inr hhooking =>
              rw [hhooking]
              rfl
      | _ => cases hsite
  | _ => cases hsite

/-!
## The whole ledger
-/

structure SpawnsWithin (limit : Option Nat) (kin : Kin) {Args Options T : Type}
    (prepared : PreparedActor Args Options) (inputs : T)
    (result : Kin × List (PreparedActor Args Options) × Except (Full T) Key) :
    Prop where
  /-- It gives its inputs back, opens nothing and registers nothing. -/
  refused : kin.AtLimit limit <-> result = (kin, [], .error { value := inputs })
  spawned : ¬ kin.AtLimit limit -> result = (kin.spawn, [prepared], .ok kin.next)

structure Supervised (A : ActorConfig) (c : ActorState V) : Prop where
  limited : forall n, A.children = some (some n) ->
    c.state.kin.actors.length <= n
  spawnChild : forall limit, A.children = some limit ->
    forall (Args Options : Type) (args : Args) (default : Options),
      SpawnsWithin limit c.state.kin { args := args, options := default } args
        (ActorScope.spawnChild limit c.state.kin args default)
  spawnChildWith : forall limit, A.children = some limit ->
    forall (Args Options : Type) (args : Args) (options : Options),
      SpawnsWithin limit c.state.kin { args := args, options := options }
        (args, options)
        (ActorScope.spawnChildWith limit c.state.kin args options)
  spawns : forall site c', userAt c = some site ->
    (machine V A).step c (.actor (.user .spawnChild)) = some c' ->
      exists limit, A.children = some limit ∧
        c'.state.kin = (ActorScope.spawnChild limit c.state.kin () ()).1
  /-- Only user code that spawns a child registers one. -/
  registers : forall event c', (machine V A).step c event = some c' ->
    c'.state.kin.next ≠ c.state.kin.next ->
      event = .actor (.user .spawnChild) ∧ (userAt c).isSome = true
  /-- Every child is retained, reaped or cleared, and only one of them. -/
  accounted : (c.state.kin.actors ++ (reapedKeys c.state.life.course ++
    c.state.kin.cleared)).Perm (List.range c.state.kin.next)
  /-- Nobody gives up a child that has not published its end. -/
  ended : forall key,
    key ∈ reapedKeys c.state.life.course ∨ key ∈ c.state.kin.cleared ->
      (c.state.kin.children key).mode.isExited = true
  /-- Its exit event is about to be sent, queued, or dequeued. -/
  told : forall key, key ∈ c.state.kin.actors ->
    (c.state.kin.children key).mode.isExited = true ->
      (if (c.state.kin.children key).published = [] then 1 else 0) +
        (c.state.kin.events.filter (fun event => event.child = key)).length +
        (c.state.kin.hand.filter (fun event => event.child = key)).length = 1
  entered : forall child, hookEntries child c.state.life.course <= 1
  /-- A hook is polled after its child ended and its slot was released. -/
  released : forall child, userAt c = some (.hookPoll child) ->
    (c.state.kin.children child).mode.isExited = true ∧
      child ∈ reapedKeys c.state.life.course ∧ child ∉ c.state.kin.actors
  cutoff : forall child, 0 < gated child false c.state.life.course ->
    hookEntries child c.state.life.course = 0

theorem spawnsWithin {limit : Option Nat} {kin : Kin} {Args Options T : Type}
    {prepared : PreparedActor Args Options} {inputs : T}
    {result : Kin × List (PreparedActor Args Options) × Except (Full T) Key}
    (hrefused : kin.AtLimit limit ->
      result = (kin, [], .error { value := inputs }))
    (hspawned : ¬ kin.AtLimit limit ->
      result = (kin.spawn, [prepared], .ok kin.next)) :
    SpawnsWithin limit kin prepared inputs result where
  refused := by
    constructor
    · exact hrefused
    · intro heq
      by_cases hfull : kin.AtLimit limit
      · exact hfull
      · rw [hspawned hfull] at heq
        simp at heq
  spawned := hspawned

theorem told_once {kin : Kin} {limit : Option Nat} {reaped : List Key}
    (h : kin.Exact limit reaped) {key : Key} (hkey : key ∈ kin.actors) :
    (if (kin.children key).published = [] then 1 else 0) +
      (kin.events.filter (fun event => event.child = key)).length +
      (kin.hand.filter (fun event => event.child = key)).length = 1 := by
  have hsent := (h.sent key hkey).length_eq
  unfold Kin.sent at hsent
  rw [List.filter_append, List.length_append, List.length_map] at hsent
  rcases h.published key hkey with hnone | ⟨status, hsome, _⟩
  · rw [hnone] at hsent ⊢
    simp only [List.length_nil] at hsent
    simp only [if_true]
    omega
  · rw [hsome] at hsent ⊢
    simp only [List.length_cons, List.length_nil] at hsent
    simp only [List.cons_ne_nil, if_false]
    omega

theorem spawns_step {c c' : ActorState V} {site : UserSite}
    (hsite : userAt c = some site)
    (hstep : (machine V A).step c (.actor (.user .spawnChild)) = some c') :
    exists limit, A.children = some limit ∧
      c'.state.kin = (ActorScope.spawnChild limit c.state.kin () ()).1 := by
  rcases c with ⟨w, prog⟩
  cases prog with
  | act op next =>
      cases op with
      | user site' =>
          rcases Option.map_eq_some_iff.mp hstep with ⟨r, hexec, hc'⟩
          subst hc'
          have hexec' : w.userStep A site' .spawnChild = some r := hexec
          rw [World.userStep] at hexec'
          split at hexec'
          · rename_i limit hchildren _
            cases hexec'
            exact ⟨limit, hchildren, rfl⟩
          · cases hexec'
      | _ => cases hsite
  | _ => cases hsite

theorem KinOp.next_exec (op : KinOp α) (reception : Reception) (kin : Kin) :
    (op.exec reception kin).1.next = kin.next := by
  cases op with
  | pollExit => exact (kin.pollExit_follows reception).next
  | reap event =>
      show (kin.reap event).1.next = kin.next
      unfold Kin.reap
      split
      · exact Kin.next_note ..
      · rfl
  | request key shutdown => exact (kin.request_follows key shutdown).next
  | wait key =>
      show (kin.wait key).1.next = kin.next
      unfold Kin.wait
      split
      · exact Kin.next_note ..
      · rfl
  | _ => rfl

theorem Op.next_exec {op : Op V α} {input : Input V} {a : α}
    (h : op.exec A input w = some (w', a))
    (hnext : w'.kin.next ≠ w.kin.next) : op.spawns input = true := by
  cases op with
  | user site =>
      cases input with
      | user act =>
          cases World.userStep_kin h with
          | inl hkin => exact absurd (congrArg Kin.next hkin) hnext
          | inr hspawn => exact hspawn.left
      | _ => cases h
  | kin op =>
      cases h
      exact absurd (op.next_exec _ w.kin) hnext
  | spawn =>
      rw [Op.spawn_exec h] at hnext
      exact absurd rfl hnext
  | _ =>
      have hkin : w'.kin = w.kin := by
        grind [Op.exec, World.wakeIf, World.transact]
      exact absurd (congrArg Kin.next hkin) hnext

theorem registers_step {c c' : ActorState V} {event : Event (Input V) EnvAct}
    (hstep : (machine V A).step c event = some c')
    (hnext : c'.state.kin.next ≠ c.state.kin.next) :
    event = .actor (.user .spawnChild) ∧ (userAt c).isSome = true := by
  cases event with
  | env e =>
      rcases Option.map_eq_some_iff.mp hstep with ⟨w', henv, hc'⟩
      subst hc'
      exact absurd (EnvAct.kin_exec henv).next hnext
  | actor input =>
      rcases c with ⟨w, prog⟩
      cases Machine.took_of_step hstep with
      | turned hsame => exact absurd (hsame ▸ rfl) hnext
      | cancelled op next _ _ hsame => exact absurd (hsame ▸ rfl) hnext
      | performed op next b hprog hexec _ =>
          subst hprog
          have hspawns := Op.next_exec (a := b) hexec hnext
          unfold Op.spawns at hspawns
          split at hspawns
          · exact ⟨rfl, rfl⟩
          · cases hspawns

/-- The supervision ledger is exact in every reachable state. -/
theorem supervision_ledger_exact (A : ActorConfig) (c : ActorState V)
    (h : Reachable A c) : Supervised A c := by
  have hledger := ledger_reachable h
  have hfaithful := (reachable_safe h).inv.kin
  have hended : forall {key : Key}, key < c.state.kin.next ->
      key ∉ c.state.kin.actors ->
        (c.state.kin.children key).mode.isExited = true := by
    intro key hlt hkey
    rcases hfaithful.noted key hlt hkey with ⟨status, hmode, _⟩
    rw [hmode]
    rfl
  have hrest : forall {key : Key},
      key ∈ reapedKeys c.state.life.course ∨ key ∈ c.state.kin.cleared ->
        key < c.state.kin.next ∧ key ∉ c.state.kin.actors := by
    intro key hkey
    have hmem := List.mem_append.mpr hkey
    constructor
    · exact List.mem_range.mp
        (hledger.accounts.mem_iff.mp (List.mem_append_right _ hmem))
    · intro hactor
      exact (List.nodup_append.mp hledger.nodup).right.right key hactor key
        hmem rfl
  constructor
  · intro n hchildren
    apply hledger.limited n
    rw [hchildren]
    rfl
  · intro limit _ Args Options args default
    have hspawn := ActorScope.spawnChild_eq limit c.state.kin args default
    exact spawnsWithin hspawn.left hspawn.right
  · intro limit _ Args Options args options
    have hspawn := ActorScope.spawnChildWith_eq limit c.state.kin args options
    exact spawnsWithin hspawn.left hspawn.right
  · exact fun site c' hsite hstep => spawns_step hsite hstep
  · exact fun event c' hstep hnext => registers_step hstep hnext
  · exact hledger.accounts
  · intro key hkey
    exact hended (hrest hkey).left (hrest hkey).right
  · intro key hkey _
    exact told_once hledger hkey
  · intro child
    have honce := hookEntries_once h child
    omega
  · intro child hsite
    have hreaped := reaped_at_hook h hsite
    have hgone := hrest (Or.inl hreaped)
    exact ⟨hended hgone.left hgone.right, hreaped, hgone.right⟩
  · intro child hlost
    have honce := hookEntries_once h child
    omega

/-- A root without a mailbox that has room for one child. -/
def nursery : ActorConfig where
  mailbox := none
  limit := none
  limitPositive := solitary.limitPositive
  mailboxDispatchBudget := 1
  budgetPositive := solitary.budgetPositive
  children := some (some 1)
  parent := false

/--
The actor spawns a child and is refused a second one.  The child ends, and its
hook is pending.
-/
def calledBack : ActorState Unit :=
  (machine Unit nursery).stage .next 60
    [.actor (.spawn true), spawnsChild, spawnsChild, silent, ready, silent,
      .env (.child 0 (.finish (.new .stopped .terminated))),
      .env (.childPublish 0), silent] 60 (initial Unit nursery)

/-- The statement applies to an actor whose child has ended. -/
theorem calledBack_supervised :
    calledBack.state.kin.next = 1 ∧
      hookEntries 0 calledBack.state.life.course = 1 ∧
        Supervised nursery calledBack :=
  ⟨by decide +kernel, by decide +kernel,
    supervision_ledger_exact nursery calledBack
      (Machine.stage_reaches (fun _ => trivial) (fun _ _ _ => trivial) _ _ _)⟩

end Loac

import Loac.Course.Discipline

/-!
# What keeps a course in its phase

Most code adds nothing to the course, or only what its phase allows, and so it
stays in that phase.  Only a few pieces of user code lead from one phase to the
next.
-/

namespace Loac

open Interleave Interleave.Prog

variable {V α β γ : Type} {A : ActorConfig} {w w' : World V}
  {P P' X Y : World V -> Prop} {parts : List Part} {phase : Phase}

/-!
## What a phase allows
-/

/-- Operations that neither belong to the course nor wait for the lifecycle. -/
def Part.quiet : Part -> Bool
  | .parks => false
  | .yields => false
  | .errs => false
  | .gate => false
  | .ends => false
  | .values => false
  | .drops => false
  | .polls => false
  | .constructs => false
  | .reaps => false
  | .init => false
  | .retires => false
  | .shutdown => false
  | .hook => false
  | .stop => false
  | _ => true

/-- Operations that may run whenever no user code is in the middle. -/
def Part.loose : Part -> Bool
  | .values => true
  | .drops => true
  | .retires => true
  | .yields => true
  | part => part.quiet

def Phase.allows (phase : Phase) : Part -> Bool
  | .values => phase.lax
  | .drops => phase.lax
  | .retires => phase.lax
  | .yields => phase.lax
  | .polls => phase.polls
  | .constructs => phase.constructs
  | part => part.quiet

theorem Phase.allows_of_loose {part : Part} (hlax : phase.lax = true)
    (h : part.loose = true) : phase.allows part = true := by
  cases part <;> first
    | exact hlax
    | exact h
    | cases h

theorem Phase.retire_of_lax (site : UserSite) (hlax : phase.lax = true) :
    phase.retire site = some phase := by
  unfold Phase.retire
  split
  · cases hlax
  · cases hlax
  · exact if_pos hlax

theorem Phase.user_of_allows {site : UserSite}
    (h : phase.allows site.part = true) (outcome : Outcome) :
    phase.user site outcome = some phase := by
  cases site with
  | construct key => exact if_pos h
  | replyPoll key => exact if_pos h
  | initCall => cases h
  | initPoll => cases h
  | onShutdown shutdown => cases h
  | hookPoll child => cases h
  | stopPoll reason => cases h
  | _ => exact Phase.retire_of_lax _ h

theorem Op.ends_of_allows {op : Op V α} (h : phase.allows op.part = true) :
    op.ends = false := by
  cases op with
  | transact t => cases t <;> first
      | rfl
      | cases h
  | _ => rfl

theorem At.inOrder {entry : Entry} (hat : At phase w)
    (h : (phase.step entry).isSome = true) : InOrder w entry := by
  unfold InOrder
  rw [hat.after]
  exact h

theorem At.cons {phase' : Phase} {entry : Entry} (hat : At phase w)
    (hstep : phase.step entry = some phase')
    (hcourse : w'.life.course = entry :: w.life.course)
    (hopen : w'.control.mode.isExited = false) : At phase' w' := by
  refine ⟨?_, hopen⟩
  rw [hcourse, Phase.after_cons hat.after]
  exact hstep

theorem At.called {phase' : Phase} {site : UserSite} {outcome : Outcome}
    (hat : At phase w) (hstep : phase.user site outcome = some phase')
    (hcourse : w'.life.course = .user site outcome :: w.life.course)
    (hopen : w'.control.mode.isExited = false) : At phase' w' :=
  have hentry : phase.step (.user site outcome) = some phase' := hstep
  hat.cons hentry hcourse hopen

theorem At.demands {op : Op V α} (hat : At phase w)
    (h : phase.allows op.part = true) : CourseDemands op w := by
  cases op with
  | user site =>
      constructor
      · intro outcome
        apply hat.inOrder
        show (phase.user site outcome).isSome = true
        rw [Phase.user_of_allows h]
        rfl
      · intro hstop
        change phase.allows site.part = true at h
        rw [hstop] at h
        cases h
  | suspend site =>
      have hlax : site.part = .yields ->
          site.Holds w ∧ (site.part = .parks -> Listening site.Accepts w) := by
        intro hyields
        change phase.allows site.part = true at h
        rw [hyields] at h
        constructor
        · cases site <;> first
            | exact ⟨phase, h, hat⟩
            | cases hyields
        · intro hparks
          rw [hyields] at hparks
          cases hparks
      cases site <;> first
        | exact hlax rfl
        | cases h
  | reach point => cases point <;> first
      | rfl
      | cases h
  | kin op => cases op <;> trivial
  | transact t => cases t <;> trivial
  | _ => trivial

theorem unexited_of_presses {mode mode' : Mode}
    (h : mode' = mode ∨ mode.Presses mode') (hopen : mode.isExited = false) :
    mode'.isExited = false := by
  cases h with
  | inl heq =>
      rw [heq]
      exact hopen
  | inr hpresses => exact hpresses.tentative.right

theorem At.exec {op : Op V α} {input : Input V} {a : α} (hat : At phase w)
    (h : phase.allows op.part = true)
    (hexec : op.exec A input w = some (w', a)) : At phase w' := by
  have hopen := unexited_of_presses
    (Op.control_presses (Op.ends_of_allows h) hexec) hat.unexited
  rcases Op.course_exec hexec with hsame | ⟨entry, hnotes, hcons⟩
  · refine ⟨?_, hopen⟩
    rw [hsame]
    exact hat.after
  · cases hnotes with
    | user site outcome =>
        exact hat.called (Phase.user_of_allows h outcome) hcons hopen
    | reaped event => cases h
    | gate => cases h

theorem At.env {e : EnvAct} (hat : At phase w) (h : e.exec A w = some w') :
    At phase w' := by
  constructor
  · rw [EnvAct.life_exec h]
    exact hat.after
  · rcases EnvAct.control_exec h with hsame | ⟨next, hpresses, hcontrol⟩
    · rw [hsame]
      exact hat.unexited
    · rw [hcontrol, Control.commit_mode]
      exact hpresses.tentative.right

/-!
## What lasts
-/

/-- The environment and the operations of some parts keep the property. -/
structure Lasts (A : ActorConfig) (parts : List Part) (P : World V -> Prop) :
    Prop where
  env : forall (e : EnvAct) (w w' : World V), e.exec A w = some w' ->
    P w -> P w'
  op : forall {α : Type} (op : Op V α) input w w' (a : α),
    parts.contains op.part = true -> op.exec A input w = some (w', a) ->
      P w -> P w'

theorem Lasts.stable (h : Lasts A parts P) :
    (courseDiscipline V A).Stable P :=
  fun e w w' _ _ henv hw => h.env e w w' henv hw

theorem Lasts.mono {few : List Part} (h : Lasts A parts P)
    (hsub : few.all parts.contains = true) : Lasts A few P where
  env := h.env
  op := by
    intro α op input w w' a hop
    have hall := List.all_eq_true.mp hsub
    exact h.op op input w w' a (hall _ (List.contains_iff_mem.mp hop))

theorem Lasts.and (h : Lasts A parts P) (h' : Lasts A parts P') :
    Lasts A parts (fun w => P w ∧ P' w) where
  env := fun e w w' henv hw => ⟨h.env e w w' henv hw.left,
    h'.env e w w' henv hw.right⟩
  op := fun op input w w' a hop hexec hw =>
    ⟨h.op op input w w' a hop hexec hw.left,
      h'.op op input w w' a hop hexec hw.right⟩

theorem Lasts.true : Lasts A parts (fun _ : World V => True) where
  env := fun _ _ _ _ _ => trivial
  op := fun _ _ _ _ _ _ _ _ => trivial

theorem Lasts.never : Lasts A parts (fun _ : World V => False) where
  env := fun _ _ _ _ h => h
  op := fun _ _ _ _ _ _ _ h => h

theorem Lasts.exists {ι : Type} {P : ι -> World V -> Prop}
    (h : forall i, Lasts A parts (P i)) :
    Lasts A parts (fun w => exists i, P i w) where
  env := fun e w w' henv ⟨i, hw⟩ => ⟨i, (h i).env e w w' henv hw⟩
  op := fun op input w w' a hop hexec ⟨i, hw⟩ =>
    ⟨i, (h i).op op input w w' a hop hexec hw⟩

theorem course_lasts (entry : Entry) :
    Lasts A parts (fun w : World V => entry ∈ w.life.course) where
  env := by
    intro e w w' henv hw
    rw [EnvAct.life_exec henv]
    exact hw
  op := fun _ _ _ _ _ _ hexec hw => Op.course_grows hexec hw

theorem contains_all {p : Part -> Bool} (h : parts.all p = true) {part : Part}
    (hmem : parts.contains part = true) : p part = true :=
  List.all_eq_true.mp h part (List.contains_iff_mem.mp hmem)

theorem at_lasts (h : parts.all phase.allows = true) :
    Lasts A parts (At (V := V) phase) where
  env := fun _ _ _ henv hw => hw.env henv
  op := fun _ _ _ _ _ hop hexec hw => hw.exec (contains_all h hop) hexec

theorem At.waits {op : Op V α} {input : Input V} {a : α} (hat : At phase w)
    (hop : op.part = .parks ∨ op.part.quiet = true)
    (hexec : op.exec A input w = some (w', a)) : At phase w' := by
  cases hop with
  | inr hquiet =>
      apply hat.exec _ hexec
      revert hquiet
      cases op.part <;> first
        | exact id
        | (intro hquiet; cases hquiet)
  | inl hparks =>
      cases op with
      | suspend site =>
          rw [Op.exec] at hexec
          split at hexec
          · cases hexec
            exact ⟨hat.after, hat.unexited⟩
          · cases hexec
      | pollNotified =>
          cases hexec
          exact ⟨hat.after, hat.unexited⟩
      | transact t => cases t <;> cases hparks
      | reach point => cases point <;> cases hparks
      | user site => cases site <;> cases hparks
      | sched op => cases op <;> cases hparks
      | mail op => cases op <;> cases hparks
      | kin op => cases op <;> cases hparks
      | _ => cases hparks

/-- What a wait for the lifecycle uses apart from its own poll. -/
def waitParts : List Part := [.looks, .notified, .parks]

theorem at_waits : Lasts A waitParts (At (V := V) phase) where
  env := fun _ _ _ henv hw => hw.env henv
  op := by
    intro α op input w w' a hop hexec hw
    apply hw.waits _ hexec
    revert hop
    cases op.part <;> first
      | exact fun _ => Or.inl rfl
      | exact fun _ => Or.inr rfl
      | (intro hop; cases hop)

theorem loose_waits : Lasts A waitParts (Loose (V := V)) :=
  Lasts.exists fun _ => Lasts.and
    ⟨fun _ _ _ _ h => h, fun _ _ _ _ _ _ _ h => h⟩ at_waits

theorem atSome_waits (starts : List Phase) :
    Lasts A waitParts (AtSome (V := V) starts) :=
  Lasts.exists fun _ => Lasts.and
    ⟨fun _ _ _ _ h => h, fun _ _ _ _ _ _ _ h => h⟩ at_waits

theorem loose_lasts (h : parts.all Part.loose = true) :
    Lasts A parts (Loose (V := V)) where
  env := fun _ _ _ henv ⟨phase, hlax, hat⟩ => ⟨phase, hlax, hat.env henv⟩
  op := fun _ _ _ _ _ hop hexec ⟨phase, hlax, hat⟩ =>
    ⟨phase, hlax, hat.exec
      (Phase.allows_of_loose hlax (contains_all h hop)) hexec⟩

theorem listening_lasts {good : Mode -> Prop}
    (h : parts.all Part.hears = true) :
    Lasts A parts (Listening (V := V) good) where
  env := fun _ _ _ henv hw => (EnvAct.heard henv).listening hw
  op := fun _ _ _ _ _ hop hexec hw =>
    (Op.heard (contains_all h hop) hexec).listening hw

theorem heeded_lasts {good : Mode -> Prop} (h : parts.all Part.hears = true) :
    Lasts A parts (Heeded (V := V) good) where
  env := fun _ _ _ henv hw => (EnvAct.heard henv).heeded hw
  op := fun _ _ _ _ _ hop hexec hw =>
    (Op.heard (contains_all h hop) hexec).heeded hw

/-!
## Vocabularies
-/

def Op.Unexited : Op V α -> α -> Prop
  | .mode, current => current.isExited = false
  | _, _ => True

def vocabulary (V : Type) (parts : List Part) : Vocabulary (Op V) where
  uses := fun op => parts.contains op.part = true
  gives := fun op a => op.Unexited a

theorem vocabulary_has : Has (vocabulary V parts) parts :=
  fun _ hop => hop

theorem vocabulary_mode (mode : Mode)
    (h : (vocabulary V parts).gives (.mode : Op V Mode) mode) :
    mode.isExited = false := h

theorem unexited_exec {op : Op V α} {input : Input V} {a : α}
    (hopen : w.control.mode.isExited = false)
    (hexec : op.exec A input w = some (w', a)) : op.Unexited a := by
  cases op with
  | mode =>
      cases hexec
      exact hopen
  | _ => trivial

theorem at_keeps (hparts : parts.all phase.allows = true)
    (hP : Lasts A parts P) :
    (vocabulary V parts).Keeps (courseDiscipline V A)
      (fun w => At phase w ∧ P w) where
  stable := ((at_lasts hparts).and hP).stable
  op := by
    intro β op hop w _ hw
    have hallows := contains_all hparts hop
    refine ⟨hw.left.demands hallows, ?_⟩
    intro input w' a _ hexec _
    exact ⟨⟨hw.left.exec hallows hexec, hP.op op input w w' a hop hexec
      hw.right⟩, unexited_exec hw.left.unexited hexec⟩

theorem loose_keeps (hparts : parts.all Part.loose = true)
    (hP : Lasts A parts P) :
    (vocabulary V parts).Keeps (courseDiscipline V A)
      (fun w => Loose w ∧ P w) where
  stable := ((loose_lasts hparts).and hP).stable
  op := by
    intro β op hop w _ hw
    rcases hw with ⟨⟨phase, hlax, hat⟩, hw⟩
    have hallows := Phase.allows_of_loose hlax (contains_all hparts hop)
    refine ⟨hat.demands hallows, ?_⟩
    intro input w' a _ hexec _
    exact ⟨⟨⟨phase, hlax, hat.exec hallows hexec⟩,
      hP.op op input w w' a hop hexec hw⟩, unexited_exec hat.unexited hexec⟩

/-!
## From phase to phase
-/

structure Phase.Runs (site : UserSite) (starts : List Phase)
    (within waiting done failed : Phase) : Prop where
  inside : within ∈ starts
  continues : forall phase, phase ∈ starts ->
    phase.user site .continues = some within
  pending : forall phase, phase ∈ starts ->
    phase.user site .pending = some waiting
  ready : forall phase, phase ∈ starts -> phase.user site .ready = some done
  panicked : forall phase, phase ∈ starts ->
    phase.user site .panicked = some failed

section Runs

variable {site : UserSite} {starts : List Phase}
  {within waiting finished failed : Phase}

theorem Phase.Runs.inOrder
    (h : Phase.Runs site starts within waiting finished failed)
    (hat : AtSome starts w) (outcome : Outcome) :
    InOrder w (.user site outcome) := by
  rcases hat with ⟨phase, hmem, hat⟩
  apply hat.inOrder
  show (phase.user site outcome).isSome = true
  cases outcome with
  | continues => simp [h.continues phase hmem]
  | pending => simp [h.pending phase hmem]
  | ready => simp [h.ready phase hmem]
  | panicked => simp [h.panicked phase hmem]

def LeadsTo (site : UserSite) (waiting finished : Phase) (w : World V) :
    Option V -> Prop
  | none => At waiting w
  | some _ => At finished w ∧ Entry.user site .ready ∈ w.life.course

theorem runUser_runs (h : Phase.Runs site starts within waiting finished failed)
    (hP : Lasts A [site.part] P)
    (hstop : site.part = .stop -> forall w, P w -> Quiescent w)
    (hw : AtSome starts w ∧ P w) :
    wp (courseDiscipline V A) (runUser site)
      (fun value w => P w ∧ LeadsTo site waiting finished w value)
      (fun w => At failed w ∧ P w) w := by
  have hsome : Lasts A [] (AtSome (V := V) starts) :=
    (atSome_waits starts).mono rfl
  apply wp.iter (fun _ w => AtSome starts w ∧ P w) hw
  intro _ w hw
  apply wp.bind
  apply wp.op (hsome.stable.and hP.stable) hw
  intro w _ hw
  refine ⟨⟨h.inOrder hw.left, fun heq => hstop heq w hw.right⟩, ?_⟩
  intro input w' step _ hexec _
  have hexec' : (Op.user site).exec A input w = some (w', step) := hexec
  have hP' := hP.op _ input w w' step (by simp [Op.part]) hexec' hw.right
  rcases hw.left with ⟨phase, hmem, hat⟩
  have hopen : w'.control.mode.isExited = false :=
    unexited_of_presses (Op.control_presses rfl hexec') hat.unexited
  cases input with
  | user act =>
      have hcourse := World.userStep_course hexec'
      cases step with
      | continues =>
          exact ⟨⟨within, h.inside, hat.called (h.continues phase hmem) hcourse
            hopen⟩, hP'⟩
      | panics => exact ⟨hat.called (h.panicked phase hmem) hcourse hopen, hP'⟩
      | returns value =>
          cases value with
          | none =>
              exact ⟨hP', hat.called (h.pending phase hmem) hcourse hopen⟩
          | some v =>
              refine ⟨hP', hat.called (h.ready phase hmem) hcourse hopen, ?_⟩
              rw [hcourse]
              exact List.mem_cons_self ..
  | _ => cases hexec'

/-- A synchronous call leads on in whatever way it returns. -/
theorem callUser_runs
    (h : Phase.Runs site starts within finished finished failed)
    (hP : Lasts A [site.part] P) (hstop : site.part ≠ .stop)
    (hw : AtSome starts w ∧ P w) :
    wp (courseDiscipline V A) (callUser site)
      (fun _ w => At finished w ∧ P w) (fun w => At failed w ∧ P w) w := by
  apply wp.seq (runUser_runs h hP (fun heq => absurd heq hstop) hw)
  intro value w hw
  cases value with
  | none => exact wp.pure ⟨hw.right, hw.left⟩
  | some _ => exact wp.pure ⟨hw.right.left, hw.left⟩

end Runs

end Loac

import Loac.Frames

/-!
# The history of a mode

The committed modes record how the mode advanced.  What every advance keeps has
held ever since, so the record says which modes are behind and gives the one
reason for which the actor can end.
-/

namespace Loac

variable {mode : Mode} {committed : List Mode}

inductive History : Mode -> List Mode -> Prop where
  | start : History .running [.running]
  | advance {mode next : Mode} {committed : List Mode} :
      History mode committed -> mode.Advances next ->
        History next (next :: committed)

theorem Mode.isExited_iff {mode : Mode} :
    mode.isExited = true <-> exists status, mode = .exited status := by
  cases mode <;> simp [Mode.isExited]

theorem Mode.isHard_of_isExited {mode : Mode} (h : mode.isExited = true) :
    mode.isHard = true := by
  rcases isExited_iff.mp h with ⟨status, hstatus⟩
  rw [hstatus]
  rfl

/-- A hard mode gives way to nothing but the end. -/
theorem Mode.Advances.from_hard {mode next : Mode} (h : mode.Advances next)
    (hhard : mode.isHard = true) :
    next = .aborting ∨ next.isExited = true := by
  cases h with
  | press h =>
      rw [h.soft] at hhard
      cases hhard
  | abort _ => exact Or.inl rfl
  | exit _ => exact Or.inr rfl

theorem Control.Moves.history {control control' : Control}
    (h : control.Moves control')
    (hhistory : History control.mode control.committed) :
    History control'.mode control'.committed := by
  cases h with
  | stays hmode hcommitted =>
      rw [hmode, hcommitted]
      exact hhistory
  | advances hadvances hcommitted =>
      rw [hcommitted]
      exact .advance hhistory hadvances

theorem Control.Moves.exited {control control' : Control}
    (h : control.Moves control') {status : ExitStatus}
    (hexited : control.mode = .exited status) :
    control'.mode = .exited status ∧
      control'.committed = control.committed := by
  cases h with
  | stays hmode hcommitted => exact ⟨hmode.trans hexited, hcommitted⟩
  | advances hadvances _ => exact absurd hexited (hadvances.not_exited status)

/-- An aborting mode was committed before unless it is committed now. -/
theorem Control.Moves.aborting {control control' : Control}
    (h : control.Moves control')
    (haborting : .aborting ∈ control'.committed) :
    .aborting ∈ control.committed ∨ control'.mode = .aborting := by
  cases h with
  | stays _ hcommitted => exact Or.inl (hcommitted ▸ haborting)
  | advances _ hcommitted =>
      rw [hcommitted, List.mem_cons] at haborting
      cases haborting with
      | inl hmode => exact Or.inr hmode.symm
      | inr hmem => exact Or.inl hmem

/-- Nothing but a hard mode follows on this one. -/
def Past (mode : Mode) {V : Type} (w : World V) : Prop :=
  w.control.mode = mode ∨ Hard w

theorem Control.Moves.past {control control' : Control}
    (h : control.Moves control') {mode : Mode} (hmode : mode ≠ .running)
    (hpast : control.mode = mode ∨ control.mode.isHard = true) :
    control'.mode = mode ∨ control'.mode.isHard = true := by
  cases h with
  | stays hsame _ =>
      rw [hsame]
      exact hpast
  | advances hadvances _ =>
      cases hsoft : control'.mode.isHard with
      | true => exact Or.inr rfl
      | false =>
          have hrunning := hadvances.from_running hsoft
          cases hpast with
          | inl heq => exact absurd (heq.symm.trans hrunning) hmode
          | inr hhard =>
              rw [hrunning] at hhard
              cases hhard

namespace History

theorem recorded (h : History mode committed) : mode ∈ committed := by
  cases h with
  | start => exact List.mem_singleton.mpr rfl
  | advance _ _ => exact List.mem_cons_self ..

theorem keeps {P : Mode -> Prop}
    (hkeeps : forall mode next : Mode, mode.Advances next -> P mode -> P next)
    (h : History mode committed) {past : Mode} (hmem : past ∈ committed)
    (hpast : P past) : P mode := by
  induction h with
  | start =>
      rw [List.mem_singleton] at hmem
      rwa [hmem] at hpast
  | advance hbefore hadvances ih =>
      cases List.mem_cons.mp hmem with
      | inl heq => rwa [heq] at hpast
      | inr hold => exact hkeeps _ _ hadvances (ih hold)

theorem past (h : History mode committed) {past : Mode}
    (hmem : past ∈ committed) (hne : past ≠ .running) :
    mode = past ∨ mode.isHard = true := by
  apply h.keeps (P := fun mode => mode = past ∨ mode.isHard = true) _ hmem
    (Or.inl rfl)
  intro mode next hadvances hmode
  cases hsoft : next.isHard with
  | true => exact Or.inr rfl
  | false =>
      have hrunning := hadvances.from_running hsoft
      cases hmode with
      | inl heq => exact absurd (heq.symm.trans hrunning) hne
      | inr hhard =>
          rw [hrunning] at hhard
          cases hhard

theorem hard_past (h : History mode committed) {past : Mode}
    (hmem : past ∈ committed) (hhard : past.isHard = true) :
    mode = past ∨ mode = .aborting ∨ mode.isExited = true := by
  apply h.keeps
    (P := fun mode => mode = past ∨ mode = .aborting ∨ mode.isExited = true) _
    hmem (Or.inl rfl)
  intro mode next hadvances hmode
  apply Or.inr
  apply hadvances.from_hard
  rcases hmode with heq | haborting | hexited
  · rw [heq]
    exact hhard
  · rw [haborting]
    rfl
  · exact Mode.isHard_of_isExited hexited

theorem once (h : History mode committed) :
    committed.filter Mode.isExited = [mode].filter Mode.isExited := by
  induction h with
  | start => rfl
  | @advance mode next committed hbefore hadvances ih =>
      have hopen : mode.isExited = false := by
        cases hexited : mode.isExited with
        | false => rfl
        | true =>
            rcases Mode.isExited_iff.mp hexited with ⟨status, hstatus⟩
            exact absurd hstatus (hadvances.not_exited status)
      rw [List.filter_cons, ih]
      simp only [List.filter_cons, List.filter_nil, hopen]
      rfl

end History

/-!
## The reason of an end
-/

/-- The reason that an actor's own modes give for its end. -/
def localReason (committed : List Mode) : ExitReason :=
  if .aborting ∈ committed then
    .aborted
  else if .killing ∈ committed then
    .killed
  else if .failing ∈ committed then
    .panicked
  else if .stopping ∈ committed then
    .stopped
  else
    .drained

theorem localReason_exited (status : ExitStatus) (committed : List Mode) :
    localReason (.exited status :: committed) = localReason committed := by
  simp [localReason]

theorem finishReason_aborting (reason : ExitReason) :
    finishReason .aborting reason = .aborted := by
  cases reason <;> rfl

theorem finishReason_killing {reason : ExitReason} (h : reason ≠ .aborted) :
    finishReason .killing reason = .killed := by
  cases reason <;> first
    | rfl
    | exact absurd rfl h

theorem finishReason_failing {reason : ExitReason} (h : reason ≠ .aborted) :
    finishReason .failing reason = .panicked := by
  cases reason <;> first
    | rfl
    | exact absurd rfl h

theorem finishReason_soft {mode : Mode} {reason : ExitReason}
    (h : mode.isHard = false) : finishReason mode reason = reason := by
  cases mode <;> first
    | (cases reason <;> rfl)
    | cases h

theorem finishReason_ne_aborted {mode : Mode} {reason : ExitReason}
    (hmode : mode ≠ .aborting) (hreason : reason ≠ .aborted) :
    finishReason mode reason ≠ .aborted := by
  cases mode <;> cases reason <;> simp_all [finishReason]

theorem History.not_mem (h : History mode committed) {past : Mode}
    (hne : past ≠ .running) (hmode : mode ≠ past)
    (hsoft : mode.isHard = false) : past ∉ committed := by
  intro hmem
  cases h.past hmem hne with
  | inl heq => exact hmode heq
  | inr hhard =>
      rw [hsoft] at hhard
      cases hhard

theorem History.not_mem_hard (h : History mode committed) {past : Mode}
    (hhard : past.isHard = true) (hmode : mode ≠ past)
    (haborting : mode ≠ .aborting) (hopen : mode.isExited = false) :
    past ∉ committed := by
  intro hmem
  rcases h.hard_past hmem hhard with heq | habort | hexited
  · exact hmode heq
  · exact haborting habort
  · rw [hopen] at hexited
    cases hexited

theorem History.localReason_soft (h : History mode committed)
    (hsoft : mode.isHard = false) {reason : ExitReason}
    (hreason : reason ≠ .aborted) (hjustified : Justified committed reason) :
    localReason committed = reason := by
  have hopen : mode.isExited = false := by
    cases hexited : mode.isExited with
    | false => rfl
    | true =>
        rw [Mode.isHard_of_isExited hexited] at hsoft
        cases hsoft
  have hhard : forall past : Mode, past.isHard = true -> past ∉ committed := by
    intro past hpast
    apply h.not_mem_hard hpast _ _ hopen
    · intro heq
      rw [heq, hpast] at hsoft
      cases hsoft
    · intro heq
      rw [heq] at hsoft
      cases hsoft
  have haborting := hhard .aborting rfl
  have hkilling := hhard .killing rfl
  have hfailing := hhard .failing rfl
  unfold localReason
  rw [if_neg haborting, if_neg hkilling, if_neg hfailing]
  cases reason with
  | stopped => exact if_pos hjustified
  | drained =>
      have hmode : mode = .draining := by
        cases h.past hjustified (by simp) with
        | inl heq => exact heq
        | inr hpast =>
            rw [hsoft] at hpast
            cases hpast
      exact if_neg (h.not_mem (by simp) (by simp [hmode]) hsoft)
  | killed => exact absurd hjustified hkilling
  | panicked => exact absurd hjustified hfailing
  | aborted => exact absurd rfl hreason

theorem History.finishReason_eq (h : History mode committed)
    (hopen : mode.isExited = false) {reason : ExitReason}
    (hreason : mode ≠ .aborting -> reason ≠ .aborted)
    (hjustified : mode.isHard = false -> Justified committed reason) :
    finishReason mode reason = localReason committed := by
  cases hmode : mode with
  | aborting =>
      have hmem := h.recorded
      rw [hmode] at hmem
      rw [finishReason_aborting]
      unfold localReason
      rw [if_pos hmem]
  | killing =>
      have hmem := h.recorded
      rw [hmode] at hmem
      rw [finishReason_killing (hreason (by simp [hmode]))]
      unfold localReason
      rw [if_neg (h.not_mem_hard rfl (by simp [hmode]) (by simp [hmode]) hopen),
        if_pos hmem]
  | failing =>
      have hmem := h.recorded
      rw [hmode] at hmem
      rw [finishReason_failing (hreason (by simp [hmode]))]
      unfold localReason
      rw [if_neg (h.not_mem_hard rfl (by simp [hmode]) (by simp [hmode]) hopen),
        if_neg (h.not_mem_hard rfl (by simp [hmode]) (by simp [hmode]) hopen),
        if_pos hmem]
  | exited status =>
      rw [hmode] at hopen
      cases hopen
  | _ =>
      have hsoft : mode.isHard = false := by
        rw [hmode]
        rfl
      rw [finishReason_soft rfl]
      exact (h.localReason_soft hsoft (hreason (by simp [hmode]))
        (hjustified hsoft)).symm

end Loac

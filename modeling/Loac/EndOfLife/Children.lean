import Loac.EndOfLife.Phases

/-!
# Children at the end of a life

A parent that ends asks its children to end and waits until each of them has.
The wait may be given up between any two children and started again.
-/

namespace Loac

open Interleave Interleave.Prog

variable {V α : Type} {A : ActorConfig} {T : Terms} {K Y : World V -> Prop}
  {w : World V}

structure Kin.Waiting (kin : Kin) (keys : List Key) : Prop where
  bound : forall key, key ∈ keys -> key < kin.next
  noted : forall key, key ∈ kin.actors -> key ∈ keys ∨ kin.Noted key

theorem Kin.Follows.waiting {kin kin' : Kin} (h : kin.Follows kin')
    {keys : List Key} (hwaiting : kin.Waiting keys) : kin'.Waiting keys where
  bound := by
    rw [h.next]
    exact hwaiting.bound
  noted := by
    rw [h.actors]
    exact fun key hkey => (hwaiting.noted key hkey).imp_right h.noted

/-- A property that depends on no wake, on no child, and not on the course. -/
structure Unrelated (A : ActorConfig) (T : Terms) (K : World V -> Prop) :
    Prop where
  idle : Idle (lifeDiscipline V A T) K
  mode : forall w, K w -> w.control.mode.isExited = false
  kin : forall w task kin life, w.life.Continues life ->
    K w -> K { w with task := task, kin := kin, life := life }

theorem Unrelated.and {P : World V -> Prop} (h : Unrelated A T K)
    (hP : Carried (lifeDiscipline V A T) 0 P)
    (hkin : forall w task kin life, w.life.Continues life ->
      P w -> P { w with task := task, kin := kin, life := life }) :
    Unrelated A T (fun w => K w ∧ P w) where
  idle := h.idle.and hP
  mode := fun w hw => h.mode w hw.left
  kin := fun w task kin life hlife hw =>
    ⟨h.kin w task kin life hlife hw.left, hkin w task kin life hlife hw.right⟩

theorem calm_unrelated : Unrelated (V := V) A T (Calm A) where
  idle := calm_idle
  mode := fun _ hw => hw.alive.unpublished.mode
  kin := by
    intro w task kin life hlife hw
    have hunpublished := hw.alive.unpublished
    constructor
    · refine ⟨⟨hunpublished.mode, ?_, ?_⟩, hw.alive.mode, hw.alive.replies⟩
      · exact hlife.exits.trans hunpublished.exits
      · exact hlife.started.trans hunpublished.started
    · intro site hsite hne
      exact hw.blamed site (hlife.panics ▸ hsite) hne

namespace Unrelated

theorem perform (h : Unrelated A T K) (op : KinOp α) {P : World V -> Prop}
    {Q : α -> World V -> Prop} (hstable : (lifeDiscipline V A T).Stable P)
    (hdemands : forall w, w.kin.Faithful -> P w -> op.Demands w.kin)
    (hop : forall w reception task life, w.kin.Faithful -> P w ->
      Q (op.exec reception w.kin).2
        { w with
          task := task
          kin := (op.exec reception w.kin).1
          life := life })
    (hK : K w) (hP : P w) :
    wp (lifeDiscipline V A T) (Loac.kin op) (fun a w => K w ∧ Q a w) Y w := by
  apply wp.op (h.idle.stable.and hstable) ⟨hK, hP⟩
  intro w hinv hw
  constructor
  · exact ⟨h.mode w hw.left, hdemands w hinv.kin hw.right⟩
  · intro input w' a _ hexec _
    cases hexec
    have hlife := w.life.noteKin_continues op
      (op.exec input.reception w.kin).2
    exact ⟨h.kin w _ _ _ hlife hw.left, hop w _ _ _ hinv.kin hw.right⟩

theorem waiting_stable (keys : List Key) :
    (lifeDiscipline V A T).Stable (fun w => w.kin.Waiting keys) :=
  fun _ _ _ _ _ henv hw => (EnvAct.kin_exec henv).waiting hw

theorem actors_stable (actors : List Key) :
    (lifeDiscipline V A T).Stable (fun w => w.kin.actors = actors) :=
  (actors_carried actors).stable

theorem waiting_wait {kin : Kin} {key : Key} {rest : List Key}
    (h : kin.Waiting (key :: rest)) :
    match (kin.wait key).2 with
    | true => (kin.wait key).1.Waiting rest
    | false => (kin.wait key).1.Waiting (key :: rest) := by
  unfold Kin.wait
  cases hmode : (kin.children key).mode with
  | exited status =>
      constructor
      · intro key' hkey'
        show key' < (kin.note status).next
        rw [Kin.next_note]
        exact h.bound key' (List.mem_cons_of_mem _ hkey')
      · intro key' hkey'
        change key' ∈ (kin.note status).actors at hkey'
        rw [Kin.actors_note] at hkey'
        cases h.noted key' hkey' with
        | inr hnoted => exact Or.inr (Kin.note_noted hnoted)
        | inl hmem =>
            cases List.mem_cons.mp hmem with
            | inl heq =>
                subst heq
                exact Or.inr (Kin.noted_note hmode)
            | inr hrest => exact Or.inl hrest
  | _ => exact ⟨h.bound, h.noted⟩

theorem pollWait (h : Unrelated A T K) (keys : List Key) (hK : K w)
    (hwaiting : w.kin.Waiting keys) :
    wp (lifeDiscipline V A T) (ChildSet.pollWait keys)
      (Sound.Splits (fun keys w => K w ∧ w.kin.Waiting keys)
        (fun _ w => K w ∧ w.kin.actors = [])) Y w := by
  induction keys generalizing w with
  | nil =>
      apply wp.seq (h.perform .clear (P := fun w => w.kin.Waiting [])
        (Q := fun _ w => w.kin.actors = []) (waiting_stable []) _ _ hK hwaiting)
      · intro _ w hw
        exact wp.pure hw
      · intro w _ hw key hkey
        cases hw.noted key hkey with
        | inl hmem => cases hmem
        | inr hnoted => exact hnoted
      · intro w _ _ _ _ _
        rfl
  | cons key rest ih =>
      apply wp.seq (h.perform (.wait key)
        (P := fun w => w.kin.Waiting (key :: rest))
        (Q := fun exited w =>
          match exited with
          | true => w.kin.Waiting rest
          | false => w.kin.Waiting (key :: rest))
        (waiting_stable _) _ _ hK hwaiting)
      · intro exited w hw
        cases exited with
        | true => exact ih hw.left hw.right
        | false => exact wp.pure hw
      · intro w _ hw
        exact hw.bound key (List.mem_cons_self ..)
      · intro w _ _ _ _ hw
        exact waiting_wait hw

theorem actors (h : Unrelated A T K) (hK : K w) :
    wp (lifeDiscipline V A T) (Loac.kin .actors)
      (fun keys w => K w ∧ w.kin.Waiting keys) Y w := by
  apply h.perform .actors Discipline.Stable.true _ _ hK trivial
  · intro w _ _
    trivial
  · intro w _ _ _ hfaithful _
    exact ⟨hfaithful.actors, fun key hkey => Or.inl hkey⟩

theorem waitAll (h : Unrelated A T K) (site : Site) (hK : K w) :
    wp (lifeDiscipline V A T) (ChildSet.waitAll site)
      (fun _ w => K w ∧ w.kin.actors = []) Y w := by
  have hidle : forall keys,
      Idle (lifeDiscipline V A T) (fun w => K w ∧ w.kin.Waiting keys) := by
    intro keys
    apply h.idle.and
    exact {
      stable := waiting_stable keys
      kept := fun op hop w input w' a _ _ hexec hw =>
        (follows_exec (Op.below_mono (by decide) hop) hexec).waiting hw }
  apply wp.seq (h.actors hK)
  intro keys w hw
  apply wp.iter (fun keys w => K w ∧ w.kin.Waiting keys) hw
  intro keys w hw
  apply wp.seq (h.pollWait keys hw.left hw.right)
  intro r w hw
  cases r with
  | inl keys' =>
      apply wp.seq ((hidle keys').waits site w hw)
      intro _ w hw
      exact wp.again hw
  | inr _ => exact wp.done hw

/-- The status of a parent whose children have all ended. -/
theorem terminalStatus (h : Unrelated A T K) (reason : ExitReason) (hK : K w)
    (hactors : w.kin.actors = []) :
    wp (lifeDiscipline V A T) (ChildSet.terminalStatus reason)
      (fun status w => K w ∧ w.kin.actors = [] ∧
        status = .new reason w.kin.subtree) Y w := by
  apply wp.seq (h.perform .subtree (P := fun w => w.kin.actors = [])
    (Q := fun subtree w => w.kin.actors = [] ∧ subtree = w.kin.subtree)
    (actors_stable []) _ _ hK hactors)
  · intro subtree w hw
    refine wp.pure ⟨hw.left, hw.right.left, ?_⟩
    rw [hw.right.right]
  · intro w _ _
    trivial
  · intro w _ _ _ _ hw
    exact ⟨hw, rfl⟩

theorem requestAllKill (h : Unrelated A T K) (hK : K w) :
    wp (lifeDiscipline V A T) (ChildSet.requestAll .kill)
      (fun _ w => K w ∧ w.kin.Hunted) Y w := by
  have hasked : forall keys : List Key, (lifeDiscipline V A T).Stable
      (fun w => forall key, key ∈ w.kin.actors ->
        key ∈ keys ∨ (w.kin.children key).mode.isHard = true) := by
    intro keys e w w' _ _ henv hw key hkey
    have hfollows := EnvAct.kin_exec henv
    rw [hfollows.actors] at hkey
    exact (hw key hkey).imp_right hfollows.isHard
  apply wp.seq (h.perform .actors
    (Q := fun keys w => forall key, key ∈ w.kin.actors ->
      key ∈ keys ∨ (w.kin.children key).mode.isHard = true)
    Discipline.Stable.true (fun _ _ _ => trivial) _ hK trivial)
  · intro keys w hw
    induction keys generalizing w with
    | nil =>
        refine wp.pure ⟨hw.left, ?_⟩
        intro key hkey
        cases hw.right key hkey with
        | inl hmem => cases hmem
        | inr hhard => exact hhard
    | cons key rest ih =>
        apply wp.seq (h.perform (.request key .kill)
          (Q := fun _ w => forall key, key ∈ w.kin.actors ->
            key ∈ rest ∨ (w.kin.children key).mode.isHard = true)
          (hasked (key :: rest)) (fun _ _ _ => trivial) _ hw.left hw.right)
        · intro _ w hw
          exact ih w hw
        · intro w _ _ _ _ hw key' hkey'
          have hfollows := Kin.request_follows w.kin key .kill
          change key' ∈ (w.kin.request key .kill).actors at hkey'
          rw [hfollows.actors] at hkey'
          cases hw key' hkey' with
          | inr hhard => exact Or.inr (hfollows.isHard hhard)
          | inl hmem =>
              cases List.mem_cons.mp hmem with
              | inl heq =>
                  subst heq
                  exact Or.inr (Kin.request_kill_isHard _ _)
              | inr hrest => exact Or.inl hrest
  · intro w _ _ _ _ _ key hkey
    exact Or.inl hkey

end Unrelated

end Loac

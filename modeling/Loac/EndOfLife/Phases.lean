import Loac.EndOfLife.Discipline

/-!
# The phases of a life

A task is calm while nothing it is blamed for is left uncontained, alive while
somebody else may still press it, and gone when the executor dropped it.  The
lower layers keep each of these phases, and a few more facts along with them.
-/

namespace Loac

open Interleave

variable {V α : Type} {A : ActorConfig} {T : Terms} {w w' : World V} {n : Nat}

/-- The task runs, nobody aborted it, and only a mailbox brings replies. -/
structure Alive (A : ActorConfig) (w : World V) : Prop where
  unpublished : Unpublished w
  mode : w.control.mode ≠ .aborting
  replies : A.mailbox = none -> NoReplies w

structure Calm (A : ActorConfig) (w : World V) : Prop where
  alive : Alive A w
  blamed : Blamed w

structure Gone (T : Terms) (w : World V) : Prop where
  unpublished : Unpublished w
  mode : w.control.mode = .aborting
  cause : T.abort ∨ ActorPanicked w

/-!
## What each operation keeps
-/

theorem Op.ends_of_level {op : Op V α} (h : op.level <= 6) :
    op.ends = false := by
  cases op with
  | transact t =>
      cases t with
      | beginAbort => exact absurd h (by decide : ¬ 7 <= 6)
      | finish _ => exact absurd h (by decide : ¬ 7 <= 6)
      | _ => rfl
  | _ => rfl

theorem Op.lives_of_level {op : Op V α} (h : op.level <= 6) :
    op.lives = false := by
  cases op with
  | start => exact absurd h (by decide : ¬ 7 <= 6)
  | publish _ => exact absurd h (by decide : ¬ 7 <= 6)
  | _ => rfl

theorem Op.accounts_of_level {op : Op V α} (h : op.level <= 6) :
    op.accounts = false := by
  cases op with
  | kin op =>
      cases op with
      | reap _ => exact absurd h (by decide : ¬ 7 <= 6)
      | wait _ => exact absurd h (by decide : ¬ 7 <= 6)
      | clear => exact absurd h (by decide : ¬ 7 <= 6)
      | _ => rfl
  | _ => rfl

theorem Op.places_of_level {op : Op V α} (h : op.level <= 5) :
    op.places = false := by
  cases op with
  | sched op =>
      cases op with
      | place _ _ => exact absurd h (by decide : ¬ 6 <= 5)
      | _ => rfl
  | _ => rfl

theorem UserSite.scope_of_level {site : UserSite} (h : site.level <= 2) :
    site.scope = false := by
  cases site with
  | replyDrop key cleared =>
      cases cleared with
      | true => exact absurd h (by decide : ¬ 3 <= 2)
      | false => exact absurd h (by decide : ¬ 4 <= 2)
  | _ => first
      | rfl
      | exact absurd h (by decide : ¬ 4 <= 2)
      | exact absurd h (by decide : ¬ 5 <= 2)

theorem UserSite.cleared_of_scope {site : UserSite} (h : site.level <= 3)
    (hscope : site.scope = true) : exists key, site = .replyDrop key true := by
  cases site with
  | replyDrop key cleared =>
      cases cleared with
      | true => exact ⟨key, rfl⟩
      | false => exact absurd h (by decide : ¬ 4 <= 3)
  | _ => first
      | exact absurd h (by decide : ¬ 4 <= 3)
      | exact absurd h (by decide : ¬ 5 <= 3)
      | cases hscope

theorem Op.spawns_of_level {op : Op V α} (h : op.level <= 2)
    (input : Input V) : op.spawns input = false := by
  cases op with
  | user site =>
      cases input with
      | user act =>
          cases act with
          | spawnChild => exact UserSite.scope_of_level h
          | _ => rfl
      | _ => rfl
  | _ => rfl

/-- The operations of the lower layers demand a life that is not over. -/
theorem LifeDemands.of_level {op : Op V α} (h : op.level <= 6)
    (hw : w.control.mode.isExited = false) : LifeDemands A T op w := by
  cases op with
  | transact t =>
      cases t with
      | beginAbort => exact absurd h (by decide : ¬ 7 <= 6)
      | finish _ => exact absurd h (by decide : ¬ 7 <= 6)
      | _ => trivial
  | suspend _ => exact absurd h (by decide : ¬ 7 <= 6)
  | user _ => exact hw
  | kin op =>
      cases op with
      | reap _ => exact absurd h (by decide : ¬ 7 <= 6)
      | wait _ => exact absurd h (by decide : ¬ 7 <= 6)
      | clear => exact absurd h (by decide : ¬ 7 <= 6)
      | _ => exact ⟨hw, trivial⟩
  | publish _ => exact absurd h (by decide : ¬ 7 <= 6)
  | reach _ => exact absurd h (by decide : ¬ 7 <= 6)
  | _ => trivial

theorem Unpublished.op_step {op : Op V α} {input : Input V} {a : α}
    (h : Unpublished w) (hlevel : op.level <= 6)
    (hexec : op.exec A input w = some (w', a)) : Unpublished w' := by
  have hlife := Op.life_exec (Op.lives_of_level hlevel) hexec
  constructor
  · cases Op.control_presses (Op.ends_of_level hlevel) hexec with
    | inl hsame =>
        rw [hsame]
        exact h.mode
    | inr hpress => exact hpress.tentative.right
  · exact hlife.right.left.trans h.exits
  · exact hlife.left.trans h.started

theorem Unpublished.env_step {e : EnvAct} (h : Unpublished w)
    (henv : e.exec A w = some w') : Unpublished w' := by
  have hlife := EnvAct.life_exec henv
  constructor
  · rcases EnvAct.control_exec henv with heq | ⟨next, hpresses, hcontrol⟩
    · rw [heq]
      exact h.mode
    · rw [hcontrol, Control.commit_mode]
      exact hpresses.tentative.right
  · rw [hlife]
    exact h.exits
  · rw [hlife]
    exact h.started

theorem Alive.op_step {op : Op V α} {input : Input V} {a : α}
    (h : Alive A w) (hlevel : op.level <= 6)
    (hplaces : op.places = false ∨ A.mailbox ≠ none)
    (hexec : op.exec A input w = some (w', a)) : Alive A w' where
  unpublished := h.unpublished.op_step hlevel hexec
  mode := by
    cases Op.control_presses (Op.ends_of_level hlevel) hexec with
    | inl hsame =>
        rw [hsame]
        exact h.mode
    | inr hpress => exact hpress.tentative.left
  replies := by
    intro hnone
    cases hplaces with
    | inl hplaces => exact Op.isEmpty_exec hplaces (h.replies hnone) hexec
    | inr hbox => exact absurd hnone hbox

theorem Alive.env_step {e : EnvAct} (h : Alive A w)
    (henv : e.exec A w = some w') : Alive A w' where
  unpublished := h.unpublished.env_step henv
  mode := by
    rcases EnvAct.control_exec henv with heq | ⟨next, hpresses, hcontrol⟩
    · rw [heq]
      exact h.mode
    · rw [hcontrol, Control.commit_mode]
      exact hpresses.tentative.left
  replies := by
    intro hnone
    unfold NoReplies
    rw [EnvAct.items_exec henv]
    exact h.replies hnone

theorem Blamed.op_step {op : Op V α} {input : Input V} {a : α}
    (h : Blamed w) (hlevel : op.level <= 6) (hblamed : op.blamed a = false)
    (hexec : op.exec A input w = some (w', a)) : Blamed w' := by
  intro site hsite hne
  have hmoves := Op.control_moves hexec
  rcases (Op.life_exec (Op.lives_of_level hlevel) hexec).right.right with
    hsame | ⟨site', hpanics, hcause⟩
  · rw [hsame] at hsite
    exact hmoves.isHard (h site hsite hne)
  · rw [hpanics, List.mem_cons] at hsite
    cases hsite with
    | inl heq =>
        rcases hcause with ⟨_, hblame⟩ | hforeign
        · rw [hblamed] at hblame
          cases hblame
        · rw [← heq, hne] at hforeign
          cases hforeign
    | inr hold => exact hmoves.isHard (h site hold hne)

theorem Hard.blamed (h : Hard w) : Blamed w :=
  fun _ _ _ => h

theorem Calm.env_step {e : EnvAct} (h : Calm A w)
    (henv : e.exec A w = some w') : Calm A w' where
  alive := h.alive.env_step henv
  blamed := by
    intro site hsite hne
    rw [EnvAct.life_exec henv] at hsite
    exact (EnvAct.control_moves henv).isHard (h.blamed site hsite hne)

/-!
## The phases are sound
-/

theorem alive_sound (hn : n <= 6) (hbox : n <= 5 ∨ A.mailbox ≠ none) :
    Sound (lifeDiscipline V A T) n (Alive A) (Alive A) where
  stable := fun _ _ _ _ _ henv hw => hw.env_step henv
  weaken := fun _ hw => hw
  op := by
    intro α op hlevel w _ hw
    refine ⟨LifeDemands.of_level (by omega) hw.unpublished.mode, ?_⟩
    intro input w' a _ hexec _
    have hplaces : op.places = false ∨ A.mailbox ≠ none :=
      hbox.imp_left (fun hfive => Op.places_of_level (by omega))
    have hw' := hw.op_step (by omega) hplaces hexec
    exact ⟨fun _ => hw', fun _ => hw'⟩
  stableUnwound := fun _ _ _ _ _ henv hw => hw.env_step henv
  contain := by
    intro w _ hw
    refine ⟨trivial, ?_⟩
    intro input w' _ hexec _
    have hlevel : (Op.transact .beginFailure : Op V Unit).level <= 6 :=
      Nat.zero_le 6
    exact hw.op_step hlevel (Or.inl rfl) hexec

theorem calm_sound (hn : n <= 6) (hbox : n <= 5 ∨ A.mailbox ≠ none) :
    Sound (lifeDiscipline V A T) n (Calm A) (Alive A) where
  stable := fun _ _ _ _ _ henv hw => hw.env_step henv
  weaken := fun _ hw => hw.alive
  op := by
    intro α op hlevel w hinv hw
    have hop := (alive_sound (T := T) hn hbox).op op hlevel w hinv hw.alive
    refine ⟨hop.left, ?_⟩
    intro input w' a hadmits hexec hinv'
    have hkept := hop.right input w' a hadmits hexec hinv'
    refine ⟨fun hblamed => ⟨hkept.left hblamed, ?_⟩, hkept.right⟩
    exact hw.blamed.op_step (by omega) hblamed hexec
  stableUnwound := fun _ _ _ _ _ henv hw => hw.env_step henv
  contain := by
    intro w hinv hw
    have hcontain := (alive_sound (T := T) hn hbox).contain w hinv hw
    refine ⟨hcontain.left, ?_⟩
    intro input w' hadmits hexec hinv'
    exact ⟨hcontain.right input w' hadmits hexec hinv',
      (hard_beginFailure hexec).blamed⟩

/-- Waiting takes a wake of the task and nothing else. -/
theorem Op.suspend_exec {site : Site} {input : Input V} {a : Unit}
    (h : (Op.suspend site).exec A input w = some (w', a)) :
    w' = { w with task := false } := by
  rw [Op.exec] at h
  by_cases htask : w.task = true
  · rw [if_pos htask] at h
    cases h
    rfl
  · rw [if_neg htask] at h
    cases h

theorem alive_idle : Idle (lifeDiscipline V A T) (Alive A) where
  toSteady := (alive_sound (by decide : 0 <= 6) (Or.inl (by decide))).lowest
  suspend := by
    intro site w _ hw
    refine ⟨hw.unpublished, ?_⟩
    intro input w' a _ hexec _
    have hw' : Alive A w' := by
      rw [Op.suspend_exec hexec]
      exact ⟨⟨hw.unpublished.mode, hw.unpublished.exits,
        hw.unpublished.started⟩, hw.mode, hw.replies⟩
    exact ⟨fun _ => hw', fun _ => hw'⟩

theorem calm_idle : Idle (lifeDiscipline V A T) (Calm A) where
  toSteady := (calm_sound (by decide : 0 <= 6) (Or.inl (by decide))).lowest
  suspend := by
    intro site w hinv hw
    have halive := alive_idle.suspend site w hinv hw.alive
    refine ⟨halive.left, ?_⟩
    intro input w' a hadmits hexec hinv'
    have hkept := (halive.right input w' a hadmits hexec hinv').left rfl
    have hw' : Calm A w' := by
      refine ⟨hkept, ?_⟩
      rw [Op.suspend_exec hexec]
      exact hw.blamed
    exact ⟨fun _ => hw', fun _ => hw'⟩

/-!
## What is carried along
-/

theorem Op.ordinary_of_level {op : Op V α}
    (h : op.level <= 6 ∨ op.suspends = true) :
    op.accounts = false ∧ op.lives = false := by
  cases h with
  | inl hlevel =>
      exact ⟨Op.accounts_of_level hlevel, Op.lives_of_level hlevel⟩
  | inr hsuspends =>
      cases op with
      | suspend site => exact ⟨rfl, rfl⟩
      | _ => cases hsuspends

theorem Op.spawns_of_ordinary {op : Op V α}
    (h : op.level <= 2 ∨ op.suspends = true) (input : Input V) :
    op.spawns input = false := by
  cases h with
  | inl hlevel => exact Op.spawns_of_level hlevel input
  | inr hsuspends =>
      cases op with
      | suspend site => rfl
      | _ => cases hsuspends

theorem Op.below_mono {op : Op V α} {n n' : Nat} (hle : n <= n')
    (h : op.level <= n ∨ op.suspends = true) :
    op.level <= n' ∨ op.suspends = true :=
  h.imp_left (fun hlevel => Nat.le_trans hlevel hle)

theorem noReplies_carried :
    Carried (lifeDiscipline V A T) 5 (NoReplies (V := V)) where
  stable := noReplies_stable
  kept := by
    intro α op hop w input w' a _ _ hexec hw
    have hplaces : op.places = false := by
      cases hop with
      | inl hlevel => exact Op.places_of_level hlevel
      | inr hsuspends =>
          cases op with
          | suspend site => rfl
          | _ => cases hsuspends
    exact Op.isEmpty_exec hplaces hw hexec

/-- Without the scope in reach, nothing happens to the registrations. -/
theorem follows_exec {op : Op V α} {input : Input V} {a : α}
    (hop : op.level <= 2 ∨ op.suspends = true)
    (hexec : op.exec A input w = some (w', a)) : w.kin.Follows w'.kin := by
  have hordinary := Op.ordinary_of_level
    (Op.below_mono (by decide : 2 <= 6) hop)
  cases Op.kin_exec hordinary.left hexec with
  | inl hfollows => exact hfollows
  | inr hspawn =>
      have hspawns := Op.spawns_of_ordinary hop input
      rw [hspawn.left] at hspawns
      cases hspawns

theorem actors_carried (actors : List Key) :
    Carried (lifeDiscipline V A T) 2
      (fun w : World V => w.kin.actors = actors) where
  stable := fun _ _ _ _ _ henv hw =>
    (EnvAct.kin_exec henv).actors.trans hw
  kept := fun _ hop _ _ _ _ _ _ hexec hw =>
    (follows_exec hop hexec).actors.trans hw

theorem truthful_carried (event : ChildExit) :
    Carried (lifeDiscipline V A T) 6
      (fun w : World V => w.kin.Truthful event) where
  stable := fun _ _ _ _ _ henv hw => (EnvAct.kin_exec henv).truthful hw
  kept := by
    intro α op hop w input w' a _ _ hexec hw
    cases Op.kin_exec (Op.ordinary_of_level hop).left hexec with
    | inl hfollows => exact hfollows.truthful hw
    | inr hspawn =>
        show w'.kin.Truthful event
        rw [hspawn.right]
        exact Kin.spawn_truthful hw

theorem ActorPanicked.op_step {op : Op V α} {input : Input V} {a : α}
    (h : ActorPanicked w) (hlives : op.lives = false)
    (hexec : op.exec A input w = some (w', a)) : ActorPanicked w' := by
  unfold ActorPanicked
  rcases (Op.life_exec hlives hexec).right.right with hsame | ⟨_, hpanics, _⟩
  · rw [hsame]
    exact h
  · rw [hpanics]
    exact List.mem_cons_of_mem _ h

theorem actorPanicked_carried :
    Carried (lifeDiscipline V A T) 6 (ActorPanicked (V := V)) where
  stable := by
    intro e w w' _ _ henv hw
    unfold ActorPanicked
    rw [EnvAct.life_exec henv]
    exact hw
  kept := fun op hop _ _ _ _ _ _ hexec hw =>
    ActorPanicked.op_step hw (Op.ordinary_of_level hop).right hexec

theorem Gone.env_step {e : EnvAct} (h : Gone T w)
    (henv : e.exec A w = some w') : Gone T w' where
  unpublished := h.unpublished.env_step henv
  mode := by
    rcases EnvAct.control_exec henv with heq | ⟨next, hpresses, _⟩
    · rw [heq]
      exact h.mode
    · have hsoft := hpresses.soft
      rw [h.mode] at hsoft
      cases hsoft
  cause := by
    unfold ActorPanicked
    rw [EnvAct.life_exec henv]
    exact h.cause

theorem Gone.op_step {op : Op V α} {input : Input V} {a : α}
    (h : Gone T w) (hlevel : op.level <= 6)
    (hexec : op.exec A input w = some (w', a)) : Gone T w' where
  unpublished := h.unpublished.op_step hlevel hexec
  mode := by
    cases Op.control_presses (Op.ends_of_level hlevel) hexec with
    | inl hsame => exact hsame.trans h.mode
    | inr hpress =>
        have hsoft := hpress.soft
        rw [h.mode] at hsoft
        cases hsoft
  cause := h.cause.imp_right fun hpanicked =>
    ActorPanicked.op_step hpanicked (Op.lives_of_level hlevel) hexec

theorem gone_sound :
    Sound (lifeDiscipline V A T) 6 (Gone (V := V) T) (Gone T) where
  stable := fun _ _ _ _ _ henv hw => hw.env_step henv
  weaken := fun _ hw => hw
  op := by
    intro α op hlevel w _ hw
    refine ⟨LifeDemands.of_level hlevel hw.unpublished.mode, ?_⟩
    intro input w' a _ hexec _
    have hw' := hw.op_step hlevel hexec
    exact ⟨fun _ => hw', fun _ => hw'⟩
  stableUnwound := fun _ _ _ _ _ henv hw => hw.env_step henv
  contain := by
    intro w _ hw
    refine ⟨trivial, ?_⟩
    intro input w' _ hexec _
    have hlevel : (Op.transact .beginFailure : Op V Unit).level <= 6 :=
      Nat.zero_le 6
    exact hw.op_step hlevel hexec

theorem NoRoom.spawnChild (h : NoRoom A w) {site : UserSite}
    {step : UserStep V}
    (hstep : w.userStep A site .spawnChild = some (w', step)) :
    w'.kin = w.kin := by
  rw [World.userStep] at hstep
  split at hstep
  · rename_i limit hchildren _
    cases hstep
    show (ActorScope.spawnChild limit w.kin () ()).1 = w.kin
    rw [(ActorScope.spawnChild_eq limit w.kin () ()).left (h limit hchildren)]
  · cases hstep

theorem hunted_carried :
    Carried (lifeDiscipline V A T) 3
      (fun w : World V => T.lateSpawn ∨ w.kin.Hunted) where
  stable := fun _ _ _ _ _ henv hw => hw.imp_right (EnvAct.kin_exec henv).hunted
  kept := by
    intro α op hop w input w' a _ hadmits hexec hw
    have hordinary := Op.ordinary_of_level
      (Op.below_mono (by decide : 3 <= 6) hop)
    cases Op.kin_exec hordinary.left hexec with
    | inl hfollows => exact hw.imp_right hfollows.hunted
    | inr hspawn =>
        have hspawns := hspawn.left
        cases op with
        | user site =>
            cases input with
            | user act =>
                cases act with
                | spawnChild =>
                    have hlevel : site.level <= 3 := by
                      cases hop with
                      | inl hlevel => exact hlevel
                      | inr hsuspends => cases hsuspends
                    rcases UserSite.cleared_of_scope hlevel hspawns with
                      ⟨key, hsite⟩
                    subst hsite
                    cases hadmits with
                    | inl hlate => exact Or.inl hlate
                    | inr hfull =>
                        unfold Kin.Hunted
                        rwa [hfull.spawnChild hexec]
                | _ => cases hspawns
            | _ => cases hspawns
        | _ => cases hspawns

end Loac

import Loac.Interleave.Solo
import Loac.Rotation.Ahead

/-!
# Drains that follow one another

A reply is due when the first of the drains begins.  As long as the mode is the
expected one and nobody takes the lease, every drain polls its full budget of
the replies that are ahead of it, or gets to it.
-/

namespace Loac

open Interleave Interleave.Prog

variable {V α : Type} {A : ActorConfig} {turn : TurnContext}
  {w w' w₀ : World V} {goal key : Key} {total : Nat} {hand : List Key}

/--
Drains one after another.  In between, messages are dispatched, which schedules
more replies.
-/
def drains (turn : TurnContext) (batch : Nat -> List Envelope) (count : Nat) :
    P V Unit :=
  iter 0 fun drained => do
    if drained < count then
      let _ ← Queue.poll turn
      forEach (batch drained) Envelope.dispatch
      again (drained + 1)
    else
      done ()

def Sched.rivals (sched : Sched) (goal : Key) : List Key :=
  (sched.ahead goal).filter sched.isLive

def Began (w₀ : World V) (goal : Key) (w : World V) : Prop :=
  w₀.sched.polls goal < w.sched.polls goal

/-- What is known of all replies: none was polled twice before the goal. -/
structure Even (w₀ : World V) (goal : Key) (w : World V) : Prop where
  next : w₀.sched.items.next <= w.sched.items.next
  even : Began w₀ goal w ∨
    forall key, w.sched.polls key <= w₀.sched.polls key + 1

structure Unpolled (w₀ : World V) (goal : Key) (w : World V) : Prop where
  live : w.sched.isLive goal = true
  flagged : (w.sched.wakes goal).ready = true
  unpolled : w.sched.polls goal = w₀.sched.polls goal

/--
The goal is still queued.  Every poll since, of which there were so many, has
used up a key of a reply ahead of it, and one key may have been popped already.
-/
structure Behind (w₀ : World V) (goal : Key) (total : Nat) (hand : List Key)
    (w : World V) : Prop extends Unpolled w₀ goal w where
  queued : exists rest post, w.sched.ready = rest ++ goal :: post ∧
    (forall key, key ∈ hand ++ rest ->
      key < w₀.sched.items.next ∧ key ≠ goal) ∧
    (forall key, w.sched.polls key +
        ((hand ++ rest).filter w₀.sched.isLive).count key <=
      w₀.sched.polls key + (w₀.sched.rivals goal).count key) ∧
    total + ((hand ++ rest).filter w₀.sched.isLive).length <=
      (w₀.sched.rivals goal).length
  gone : forall key, key < w₀.sched.items.next ->
    w₀.sched.isLive key = false -> w.sched.isLive key = false

def Approaching (w₀ : World V) (goal : Key) (total : Nat) (w : World V) : Prop :=
  Began w₀ goal w ∨ Behind w₀ goal total [] w

def TurnDemands (w₀ : World V) (goal : Key) : {α : Type} -> Op V α ->
    World V -> Prop
  | _, .sched (.takeReady key), w =>
      Began w₀ goal w ∨ w.sched.polls key <= w₀.sched.polls key
  | _, _, _ => True

def Rotates (turn : TurnContext) (w : World V) : Prop :=
  w.control.mode = turn.expectedMode ∧ w.sched.lease = none

def rotation (V : Type) (A : ActorConfig) (turn : TurnContext) (w₀ : World V)
    (goal : Key) : Discipline ((machine V A).solo Unit) where
  inv := Even w₀ goal
  admits := fun _ _ w => Rotates turn w
  tolerates := fun _ _ => True
  demands := TurnDemands w₀ goal

/-!
## Steps
-/

section Steps

variable {bound : Nat}

theorem Began.trails (hgoal : goal < bound)
    (htrails : w.sched.Trails bound w'.sched) (h : Began w₀ goal w) :
    Began w₀ goal w' := by
  unfold Began
  rw [htrails.polls goal hgoal]
  exact h

theorem Unpolled.trails (hgoal : goal < bound)
    (htrails : w.sched.Trails bound w'.sched) (h : Unpolled w₀ goal w) :
    Unpolled w₀ goal w' where
  live := by
    rw [htrails.live goal hgoal]
    exact h.live
  flagged := htrails.flags goal hgoal h.flagged
  unpolled := by
    rw [htrails.polls goal hgoal]
    exact h.unpolled

theorem Behind.trails (hgoal : goal < w₀.sched.items.next)
    (htrails : w.sched.Trails w₀.sched.items.next w'.sched)
    (h : Behind w₀ goal total hand w) : Behind w₀ goal total hand w' where
  toUnpolled := h.toUnpolled.trails hgoal htrails
  queued := by
    rcases h.queued with ⟨rest, post, hready, hknown, hcount, htotal⟩
    rcases htrails.ready with ⟨more, hmore⟩
    refine ⟨rest, post ++ more, ?_, hknown, ?_, htotal⟩
    · rw [hmore, hready]
      simp
    · intro key
      exact Nat.le_trans (Nat.add_le_add_right (htrails.fewer key) _)
        (hcount key)
  gone := by
    intro key hkey hdead
    rw [htrails.live key hkey]
    exact h.gone key hkey hdead

theorem Even.trails (hgoal : goal < w₀.sched.items.next)
    (htrails : w.sched.Trails w₀.sched.items.next w'.sched)
    (h : Even w₀ goal w) : Even w₀ goal w' where
  next := Nat.le_trans h.next htrails.next
  even := by
    cases h.even with
    | inl hbegan => exact Or.inl (hbegan.trails hgoal htrails)
    | inr heven =>
        exact Or.inr fun key => Nat.le_trans (htrails.fewer key) (heven key)

/-- An operation that serves leaves the polls alone, but for the one it begins. -/
theorem Sched.polls_takeReady (sched : Sched) (key other : Key) :
    (sched.takeReady key).1.polls other =
      sched.polls other +
        (if other = key ∧ (sched.wakes key).ready = true then 1 else 0) := by
  unfold takeReady
  by_cases hready : (sched.wakes key).ready = true
  · rw [if_pos hready]
    show (sched.setWake key _).polls other = _
    rw [polls_setWake]
    by_cases heq : other = key
    · subst heq
      rw [if_pos rfl, if_pos ⟨rfl, hready⟩]
      rfl
    · rw [if_neg heq, if_neg (fun h => heq h.left)]
      rfl
  · rw [if_neg hready, if_neg (fun h => hready h.right)]
    rfl

/-- The polls and the keys that were given out stay the same. -/
theorem Even.of_wakes (hwakes : w'.sched.wakes = w.sched.wakes)
    (hnext : w'.sched.items.next = w.sched.items.next)
    (h : Even w₀ goal w) : Even w₀ goal w' where
  next := by
    rw [hnext]
    exact h.next
  even := by
    have heven := h.even
    unfold Began Sched.polls at heven ⊢
    rw [hwakes]
    exact heven

theorem Even.takeReady (h : Even w₀ goal w)
    (hdemands : TurnDemands w₀ goal (Op.sched (.takeReady key) : Op V Bool) w) :
    Even w₀ goal { w with sched := (w.sched.takeReady key).1 } where
  next := by
    have hitems : (w.sched.takeReady key).1.items = w.sched.items :=
      @SchedOp.items_same _ (.takeReady key) rfl w.sched
    show _ <= (w.sched.takeReady key).1.items.next
    rw [hitems]
    exact h.next
  even := by
    have hpolls := Sched.polls_takeReady w.sched key
    cases hdemands with
    | inl hbegan =>
        refine Or.inl ?_
        show _ < (w.sched.takeReady key).1.polls goal
        rw [hpolls]
        exact Nat.lt_of_lt_of_le hbegan (Nat.le_add_right ..)
    | inr hfew =>
        cases h.even with
        | inl hbegan =>
            refine Or.inl ?_
            show _ < (w.sched.takeReady key).1.polls goal
            rw [hpolls]
            exact Nat.lt_of_lt_of_le hbegan (Nat.le_add_right ..)
        | inr heven =>
            refine Or.inr fun other => ?_
            show (w.sched.takeReady key).1.polls other <= _
            rw [hpolls]
            have hother := heven other
            split
            · rename_i hsame
              rw [hsame.left]
              omega
            · exact hother

end Steps

theorem rotation_lawful (hgoal : goal < w₀.sched.items.next) :
    (rotation V A turn w₀ goal).Lawful where
  actor := by
    intro α op input w w' a hinv hdemands _ hexec
    have hexec : op.exec A input w = some (w', a) := hexec
    cases hserves : op.serves with
    | false => exact hinv.trails hgoal (Op.trails hserves hinv.next hexec)
    | true =>
        cases op with
        | sched op =>
            rw [(Op.sched_result hexec).left]
            cases op with
            | takeReady key => exact Even.takeReady hinv hdemands
            | popReady =>
                apply Even.of_wakes _ _ hinv
                · show w.sched.popReady.1.wakes = _
                  unfold Sched.popReady
                  split <;> rfl
                · show w.sched.popReady.1.items.next = _
                  unfold Sched.popReady
                  split <;> rfl
            | remove key => exact Even.of_wakes (w := w) rfl rfl hinv
            | drain =>
                apply Even.of_wakes _ _ hinv
                · show w.sched.drain.1.wakes = _
                  unfold Sched.drain
                  split <;> rfl
                · show w.sched.drain.1.items.next = _
                  unfold Sched.drain
                  split <;> rfl
            | place key future =>
                exact Even.of_wakes (w := w) rfl (Slots.next_place ..) hinv
            | _ => cases hserves
        | _ => cases hserves
  env := by
    intro e w w' hinv _ henv
    exact hinv.trails hgoal (EnvAct.trails henv)

/-!
## What is kept
-/

/-- The operations that neither pop, poll, place nor take out. -/
def trailing (V : Type) : Vocabulary (Op V) where
  uses := fun op => op.serves = false
  gives := fun _ _ => True

theorem TurnDemands.trailing {op : Op V α} (hop : op.serves = false)
    (w : World V) : TurnDemands w₀ goal op w := by
  cases op with
  | sched op => cases op <;> first
      | (cases hop; done)
      | trivial
  | _ => trivial

section Kept

variable {K : World V -> Prop}

theorem trailing_keeps
    (htrails : forall w w' : World V,
      w.sched.Trails w₀.sched.items.next w'.sched -> K w -> K w') :
    (trailing V).Keeps (rotation V A turn w₀ goal) K where
  stable := fun e w w' _ _ henv hw => htrails w w' (EnvAct.trails henv) hw
  op := by
    intro β op hop w hinv hw
    refine ⟨TurnDemands.trailing hop w, ?_⟩
    intro input w' b _ hexec _
    exact ⟨htrails w w' (Op.trails hop hinv.next hexec) hw, trivial⟩

end Kept

variable {X : World V -> Prop}

theorem Approaching.trails (hgoal : goal < w₀.sched.items.next)
    (htrails : w.sched.Trails w₀.sched.items.next w'.sched)
    (h : Approaching w₀ goal total w) : Approaching w₀ goal total w' := by
  cases h with
  | inl hbegan => exact Or.inl (hbegan.trails hgoal htrails)
  | inr hbehind => exact Or.inr (hbehind.trails hgoal htrails)

theorem approaching_keeps (hgoal : goal < w₀.sched.items.next) :
    (trailing V).Keeps (rotation V A turn w₀ goal)
      (Approaching w₀ goal total) :=
  trailing_keeps (fun _ _ htrails hw => hw.trails hgoal htrails)

theorem behind_keeps (hgoal : goal < w₀.sched.items.next) :
    (trailing V).Keeps (rotation V A turn w₀ goal)
      (Behind w₀ goal total hand) :=
  trailing_keeps (fun _ _ htrails hw => hw.trails hgoal htrails)

theorem unpolled_keeps (hgoal : goal < w₀.sched.items.next) :
    (trailing V).Keeps (rotation V A turn w₀ goal) (Unpolled w₀ goal) :=
  trailing_keeps (fun _ _ htrails hw => hw.trails hgoal htrails)

theorem Op.polls_grow {op : Op V α} {input : Input V} {a : α}
    (hgoal : goal < w.sched.items.next)
    (h : op.exec A input w = some (w', a)) :
    w.sched.polls goal <= w'.sched.polls goal := by
  cases hserves : op.serves with
  | false =>
      have htrails := Op.trails hserves (Nat.le_refl _) h
      exact Nat.le_of_eq (htrails.polls goal hgoal).symm
  | true =>
      cases op with
      | sched op =>
          rw [(Op.sched_result h).left]
          cases op with
          | takeReady key =>
              show _ <= (w.sched.takeReady key).1.polls goal
              rw [Sched.polls_takeReady]
              exact Nat.le_add_right ..
          | popReady =>
              show _ <= w.sched.popReady.1.polls goal
              unfold Sched.popReady
              split <;> exact Nat.le_refl _
          | drain =>
              show _ <= w.sched.drain.1.polls goal
              unfold Sched.drain
              split <;> exact Nat.le_refl _
          | _ => first
              | exact Nat.le_refl _
              | cases hserves
      | _ => cases hserves

theorem began_keeps (hgoal : goal < w₀.sched.items.next) :
    (Vocabulary.all : Vocabulary (Op V)).Keeps (rotation V A turn w₀ goal)
      (Began w₀ goal) where
  stable := fun e w w' _ _ henv hw => hw.trails hgoal (EnvAct.trails henv)
  op := by
    intro β op _ w hinv hw
    refine ⟨?_, ?_⟩
    · show TurnDemands w₀ goal op w
      cases op with
      | sched op => cases op <;> first
          | exact Or.inl hw
          | trivial
      | _ => trivial
    · intro input w' b _ hexec _
      have hnext := Nat.lt_of_lt_of_le hgoal hinv.next
      exact ⟨Nat.lt_of_lt_of_le hw (Op.polls_grow hnext hexec), trivial⟩

theorem began_any (hgoal : goal < w₀.sched.items.next) {p : P V α}
    {Q : α -> World V -> Prop} (hQ : forall a w, Began w₀ goal w -> Q a w)
    (hw : Began w₀ goal w) :
    wp (rotation V A turn w₀ goal) p Q (fun _ => True) w :=
  wp.mono hQ (fun _ _ => trivial)
    ((uses_all p).keeps (began_keeps hgoal) w hw)

/-!
## Replies ahead
-/

theorem Behind.skips (h : Behind w₀ goal total [key] w) :
    Behind w₀ goal total [] w where
  toUnpolled := h.toUnpolled
  queued := by
    rcases h.queued with ⟨rest, post, hready, hknown, hcount, htotal⟩
    have hsub : (rest.filter w₀.sched.isLive).Sublist
        (([key] ++ rest).filter w₀.sched.isLive) :=
      (List.sublist_append_right ..).filter _
    refine ⟨rest, post, hready, ?_, ?_, ?_⟩
    · exact fun other hother => hknown other (List.mem_append_right _ hother)
    · intro other
      have hbefore := hcount other
      have hle := hsub.count_le other
      show _ + (rest.filter w₀.sched.isLive).count other <= _
      omega
    · have hle := hsub.length_le
      show _ + (rest.filter w₀.sched.isLive).length <= _
      omega
  gone := h.gone

theorem Behind.takes (hlive : w₀.sched.isLive key = true) (hne : key ≠ goal)
    (hflag : (w.sched.wakes key).ready = true)
    (h : Behind w₀ goal total [key] w) :
    Behind w₀ goal (total + 1) []
      { w with sched := (w.sched.takeReady key).1 } := by
  have hpolls := Sched.polls_takeReady w.sched key
  have htaken : w.sched.takeReady key =
      (w.sched.setWake key { w.sched.wakes key with
        ready := false, polls := (w.sched.wakes key).polls + 1 }, true) :=
    if_pos hflag
  rcases h.queued with ⟨rest, post, hready, hknown, hcount, htotal⟩
  have hhand : ([key] ++ rest).filter w₀.sched.isLive =
      key :: rest.filter w₀.sched.isLive := by
    rw [List.singleton_append, List.filter_cons_of_pos hlive]
  rw [hhand] at hcount htotal
  rw [List.length_cons] at htotal
  constructor
  · constructor
    · rw [htaken]
      exact h.live
    · rw [htaken]
      show (Function.update w.sched.wakes key _ goal).ready = true
      rw [Function.update_of_ne (Ne.symm hne)]
      exact h.flagged
    · show (w.sched.takeReady key).1.polls goal = _
      rw [hpolls, if_neg (fun heq => hne heq.left.symm)]
      exact h.unpolled
  · refine ⟨rest, post, ?_, ?_, ?_, ?_⟩
    · rw [htaken]
      exact hready
    · exact fun other hother => hknown other (List.mem_append_right _ hother)
    · intro other
      have hbefore := hcount other
      show (w.sched.takeReady key).1.polls other +
        (rest.filter w₀.sched.isLive).count other <= _
      rw [hpolls]
      by_cases heq : other = key
      · subst heq
        rw [if_pos ⟨rfl, hflag⟩]
        rw [List.count_cons_self] at hbefore
        omega
      · rw [if_neg (fun hsame => heq hsame.left)]
        rw [List.count_cons_of_ne (Ne.symm heq)] at hbefore
        omega
    · show total + 1 + (rest.filter w₀.sched.isLive).length <= _
      omega
  · intro other hother hdead
    rw [htaken]
    exact h.gone other hother hdead

theorem Behind.removes (hne : key ≠ goal) (h : Behind w₀ goal total [] w) :
    Behind w₀ goal total []
      { w with sched := (w.sched.remove key).1 } where
  live := by
    show ((w.sched.items.remove key).get? goal).isSome = true
    rw [Slots.get?_remove, if_neg (Ne.symm hne)]
    exact h.live
  flagged := h.flagged
  unpolled := h.unpolled
  queued := h.queued
  gone := by
    intro other hother hdead
    show ((w.sched.items.remove key).get? other).isSome = false
    rw [Slots.get?_remove]
    split
    · rfl
    · exact h.gone other hother hdead

theorem trailing_calm {parts : List Part}
    (hplaces : parts.contains .places = false)
    (hremoves : parts.contains .removes = false) :
    HasCalm (trailing V) parts := by
  intro α op hop hsteers
  have hpart : op.part ≠ .places := by
    intro hpart
    rw [hpart, hplaces] at hop
    cases hop
  have hremove : op.part ≠ .removes := by
    intro hpart
    rw [hpart, hremoves] at hop
    cases hop
  show op.serves = false
  cases op with
  | sched op => cases op <;> first
      | rfl
      | exact absurd rfl hpart
      | exact absurd rfl hremove
      | cases hsteers
  | _ => rfl

/-!
## One drain
-/

section Drain

variable (hgoal : goal < w₀.sched.items.next)

include hgoal

/-- The next key is the goal's, or the key of a reply ahead of it. -/
theorem popReady_rotates (hw : Behind w₀ goal total [] w) :
    wp (rotation V A turn w₀ goal) (sched .popReady)
      (fun popped w => exists key, popped = some key ∧
        ((key = goal ∧ Unpolled w₀ goal w) ∨
          (key ≠ goal ∧ Behind w₀ goal total [key] w)))
      (fun _ => True) w := by
  apply wp.op (behind_keeps hgoal).stable hw
  intro w _ hw
  refine ⟨trivial, ?_⟩
  intro input w' popped _ hexec _
  have hexec : (Op.sched SchedOp.popReady).exec A input w = some (w', popped) :=
    hexec
  rcases Op.sched_result hexec with ⟨hw', hpopped⟩
  rcases hw.queued with ⟨rest, post, hready, hknown, hcount, htotal⟩
  cases rest with
  | nil =>
      have hpop := Sched.popReady_cons hready
      change w.sched.popReady.2 = popped at hpopped
      change w' = { w with sched := w.sched.popReady.1 } at hw'
      rw [hpop] at hw' hpopped
      subst hw'
      exact ⟨goal, hpopped.symm,
        Or.inl ⟨rfl, ⟨hw.live, hw.flagged, hw.unpolled⟩⟩⟩
  | cons key rest =>
      have hready : w.sched.ready = key :: (rest ++ goal :: post) := hready
      have hpop := Sched.popReady_cons hready
      change w.sched.popReady.2 = popped at hpopped
      change w' = { w with sched := w.sched.popReady.1 } at hw'
      rw [hpop] at hw' hpopped
      subst hw'
      refine ⟨key, hpopped.symm, Or.inr ⟨?_, ?_⟩⟩
      · exact (hknown key (List.mem_cons_self ..)).right
      · exact { toUnpolled := ⟨hw.live, hw.flagged, hw.unpolled⟩
                queued := ⟨rest, post, rfl, hknown, hcount, htotal⟩
                gone := hw.gone }

theorem findGoal_rotates (hw : Unpolled w₀ goal w) :
    wp (rotation V A turn w₀ goal) (sched (.find goal))
      (fun found w => found.isSome = true ∧ Unpolled w₀ goal w)
      (fun _ => True) w := by
  apply wp.op (unpolled_keeps hgoal).stable hw
  intro w _ hw
  refine ⟨trivial, ?_⟩
  intro input w' found _ hexec _
  have hexec : (Op.sched (SchedOp.find goal)).exec A input w =
    some (w', found) := hexec
  rcases Op.sched_result hexec with ⟨hw', hfound⟩
  subst hw'
  refine ⟨?_, ⟨hw.live, hw.flagged, hw.unpolled⟩⟩
  rw [← hfound]
  exact hw.live

theorem takeGoal_rotates (hw : Unpolled w₀ goal w) :
    wp (rotation V A turn w₀ goal) (sched (.takeReady goal))
      (fun ready w => ready = true ∧ Began w₀ goal w) (fun _ => True) w := by
  apply wp.op (unpolled_keeps hgoal).stable hw
  intro w _ hw
  refine ⟨Or.inr (Nat.le_of_eq hw.unpolled), ?_⟩
  intro input w' ready _ hexec _
  have hexec : (Op.sched (SchedOp.takeReady goal)).exec A input w =
    some (w', ready) := hexec
  rcases Op.sched_result hexec with ⟨hw', hready⟩
  subst hw'
  constructor
  · rw [← hready]
    show (w.sched.takeReady goal).2 = true
    unfold Sched.takeReady
    rw [if_pos hw.flagged]
  · show _ < (w.sched.takeReady goal).1.polls goal
    rw [Sched.polls_takeReady, if_pos ⟨rfl, hw.flagged⟩, hw.unpolled]
    exact Nat.lt_succ_self _

theorem findRival_rotates (hw : Behind w₀ goal total [key] w) :
    wp (rotation V A turn w₀ goal) (sched (.find key))
      (fun found w => Behind w₀ goal total [key] w ∧
        (found.isSome = true -> w₀.sched.isLive key = true))
      (fun _ => True) w := by
  apply wp.op (behind_keeps hgoal).stable hw
  intro w _ hw
  refine ⟨trivial, ?_⟩
  intro input w' found _ hexec _
  have hexec : (Op.sched (SchedOp.find key)).exec A input w =
    some (w', found) := hexec
  rcases Op.sched_result hexec with ⟨hw', hfound⟩
  subst hw'
  refine ⟨hw, ?_⟩
  intro hsome
  rcases hw.queued with ⟨rest, post, _, hknown, _, _⟩
  by_contra hdead
  have hgone := hw.gone key (hknown key (List.mem_cons_self ..)).left
    (Bool.not_eq_true _ ▸ hdead)
  rw [← hfound] at hsome
  change w.sched.isLive key = true at hsome
  rw [hgone] at hsome
  cases hsome

theorem takeRival_rotates (hrivals : (w₀.sched.rivals goal).Nodup)
    (hlive : w₀.sched.isLive key = true) (hne : key ≠ goal)
    (hw : Behind w₀ goal total [key] w) :
    wp (rotation V A turn w₀ goal) (sched (.takeReady key))
      (fun ready w =>
        Behind w₀ goal (if ready then total + 1 else total) [] w)
      (fun _ => True) w := by
  apply wp.op (behind_keeps hgoal).stable hw
  intro w _ hw
  have hfew : w.sched.polls key <= w₀.sched.polls key := by
    rcases hw.queued with ⟨rest, post, _, _, hcount, _⟩
    have hbound := hcount key
    have hone := List.nodup_iff_count_le_one.mp hrivals key
    rw [List.singleton_append, List.filter_cons_of_pos hlive,
      List.count_cons_self] at hbound
    omega
  refine ⟨Or.inr hfew, ?_⟩
  intro input w' ready _ hexec _
  have hexec : (Op.sched (SchedOp.takeReady key)).exec A input w =
    some (w', ready) := hexec
  rcases Op.sched_result hexec with ⟨hw', hready⟩
  change (w.sched.takeReady key).2 = ready at hready
  change w' = { w with sched := (w.sched.takeReady key).1 } at hw'
  rw [hw', ← hready]
  by_cases hflag : (w.sched.wakes key).ready = true
  · have htaken : (w.sched.takeReady key).2 = true := by
      unfold Sched.takeReady
      rw [if_pos hflag]
    rw [htaken]
    exact hw.takes hlive hne hflag
  · have hleft : w.sched.takeReady key = (w.sched, false) := if_neg hflag
    rw [hleft]
    exact hw.skips

theorem complete_rotates (hne : key ≠ goal) :
    Keeps (rotation V A turn w₀ goal) (Behind w₀ goal total [])
      (fun _ => True) (Queue.complete key) := by
  have hkeeps : (trailing V).Keeps (rotation V A turn w₀ goal)
      (Behind w₀ goal total []) := behind_keeps hgoal
  have hremove : Keeps (rotation V A turn w₀ goal) (Behind w₀ goal total [])
      (fun _ => True) (sched (.remove key)) := by
    intro w hw
    apply wp.op hkeeps.stable hw
    intro w _ hw
    refine ⟨trivial, ?_⟩
    intro input w' removed _ hexec _
    have hexec : (Op.sched (SchedOp.remove key)).exec A input w =
      some (w', removed) := hexec
    rw [(Op.sched_result hexec).left]
    exact hw.removes hne
  have hquiet : forall {α : Type} {p : P V α}, p.Uses (trailing V) ->
      Keeps (rotation V A turn w₀ goal) (Behind w₀ goal total [])
        (fun _ => True) p :=
    fun hp => (hp.keeps hkeeps).conseq (fun _ _ => trivial)
  refine Keeps.bind (Keeps.bind hremove fun removed => ?_) fun _ => ?_
  · cases removed with
    | none => exact Keeps.pure _
    | some scheduled =>
        exact hquiet (dropUserValue_calm (trailing_calm rfl rfl)
          (dropScheduled_calm (trailing_calm rfl rfl) key false scheduled))
  · refine Keeps.bind (hkeeps.perform (.sched .held) rfl) fun held => ?_
    exact Keeps.onlyIf (hkeeps.perform (.sched .forceRelease) rfl)

omit hgoal in
theorem differs_rotates {K : World V -> Prop}
    (hkeeps : (trailing V).Keeps (rotation V A turn w₀ goal) K) (hw : K w) :
    wp (rotation V A turn w₀ goal) (differs turn.expectedMode)
      (fun differs w => differs = false ∧ K w) (fun _ => True) w := by
  apply wp.op hkeeps.stable hw
  intro w hinv hw
  have hkept := hkeeps.op (.differs turn.expectedMode) rfl w hinv hw
  refine ⟨hkept.left, ?_⟩
  intro input w' differs hadmits hexec hinv'
  refine ⟨?_, (hkept.right input w' differs hadmits hexec hinv').left⟩
  cases hexec
  exact decide_eq_false (fun hne => hne hadmits.left)

omit hgoal in
/-- While nobody disturbs, no lease is held. -/
theorem held_rotates {K : World V -> Prop}
    (hkeeps : (trailing V).Keeps (rotation V A turn w₀ goal) K) (hw : K w) :
    wp (rotation V A turn w₀ goal) (sched .held)
      (fun held w => held = none ∧ K w) (fun _ => True) w := by
  apply wp.op hkeeps.stable hw
  intro w hinv hw
  have hkept := hkeeps.op (.sched .held) rfl w hinv hw
  refine ⟨hkept.left, ?_⟩
  intro input w' held hadmits hexec hinv'
  refine ⟨?_, (hkept.right input w' held hadmits hexec hinv').left⟩
  cases hexec
  exact hadmits.right

/-- The goal was polled, or the drain has polled so many replies ahead of it. -/
def Midway (w₀ : World V) (goal : Key) (total : Nat) (state : Nat × Bool)
    (w : World V) : Prop :=
  Began w₀ goal w ∨
    (state.1 <= activePollBudget ∧ Behind w₀ goal (total + state.1) [] w)

/-- After the goal was polled, a loop may go on or leave. -/
theorem began_rounds {β γ : Type} {p : P V (β ⊕ γ)} {I : β -> World V -> Prop}
    {Q : γ -> World V -> Prop} (hI : forall b w, Began w₀ goal w -> I b w)
    (hQ : forall c w, Began w₀ goal w -> Q c w) (hw : Began w₀ goal w) :
    wp (rotation V A turn w₀ goal) p (Splits I Q) (fun _ => True) w := by
  apply began_any hgoal _ hw
  intro r w hw
  cases r with
  | inl b => exact hI b w hw
  | inr c => exact hQ c w hw

theorem goalRound (state : Nat × Bool) (hw : Unpolled w₀ goal w) :
    wp (rotation V A turn w₀ goal) (do
      match ← sched (.find goal) with
      | none => again state
      | some scheduled =>
          if ← sched (.takeReady goal) then
            let ready ← scheduled.pollWithTask goal
            if ready then
              Queue.complete goal
              again (state.1 + 1, true)
            else if (← sched .held).isSome then
              done none
            else
              again (state.1 + 1, state.2)
          else
            again state : P V ((Nat × Bool) ⊕ Option Bool))
      (Splits (Midway w₀ goal total)
        (fun _ => Approaching w₀ goal (total + activePollBudget)))
      (fun _ => True) w := by
  apply wp.seq (findGoal_rotates hgoal hw)
  intro found w ⟨hfound, hw⟩
  cases found with
  | none => cases hfound
  | some scheduled =>
      apply wp.seq (takeGoal_rotates hgoal hw)
      intro ready w ⟨hready, hw⟩
      subst hready
      exact began_rounds hgoal (fun _ _ => Or.inl) (fun _ _ => Or.inl) hw

theorem rivalRound (hrivals : (w₀.sched.rivals goal).Nodup) {polled : Nat}
    {completed : Bool} (hpolled : polled < activePollBudget) (hne : key ≠ goal)
    (hw : Behind w₀ goal (total + polled) [key] w) :
    wp (rotation V A turn w₀ goal) (do
      match ← sched (.find key) with
      | none => again (polled, completed)
      | some scheduled =>
          if ← sched (.takeReady key) then
            let ready ← scheduled.pollWithTask key
            if ready then
              Queue.complete key
              again (polled + 1, true)
            else if (← sched .held).isSome then
              done none
            else
              again (polled + 1, completed)
          else
            again (polled, completed) : P V ((Nat × Bool) ⊕ Option Bool))
      (Splits (Midway w₀ goal total)
        (fun _ => Approaching w₀ goal (total + activePollBudget)))
      (fun _ => True) w := by
  apply wp.seq (findRival_rotates hgoal hw)
  intro found w ⟨hw, hlive⟩
  cases found with
  | none => exact wp.again (Or.inr ⟨Nat.le_of_lt hpolled, hw.skips⟩)
  | some scheduled =>
      apply wp.seq (takeRival_rotates hgoal hrivals (hlive rfl) hne hw)
      intro ready w hw
      cases ready with
      | false => exact wp.again (Or.inr ⟨Nat.le_of_lt hpolled, hw⟩)
      | true =>
          have hkeeps : (trailing V).Keeps (rotation V A turn w₀ goal)
              (Behind w₀ goal (total + polled + 1) []) := behind_keeps hgoal
          have hpoll : Keeps (rotation V A turn w₀ goal)
              (Behind w₀ goal (total + polled + 1) []) (fun _ => True)
              (scheduled.pollWithTask key) :=
            ((pollWithTask_calm (trailing_calm rfl rfl) key scheduled).keeps
              hkeeps).conseq (fun _ _ => trivial)
          apply wp.seq (hpoll w hw)
          intro ready w hw
          cases ready with
          | true =>
              apply wp.seq (complete_rotates hgoal hne w hw)
              intro _ w hw
              exact wp.again (Or.inr ⟨hpolled, hw⟩)
          | false =>
              apply wp.seq (held_rotates hkeeps hw)
              intro held w ⟨hheld, hw⟩
              subst hheld
              exact wp.again (Or.inr ⟨hpolled, hw⟩)

theorem drain_rotates (hrivals : (w₀.sched.rivals goal).Nodup)
    (hw : Approaching w₀ goal total w) :
    wp (rotation V A turn w₀ goal) (Queue.drain turn)
      (fun _ => Approaching w₀ goal (total + activePollBudget))
      (fun _ => True) w := by
  apply wp.rounds (Midway w₀ goal total)
  · cases hw with
    | inl hbegan => exact Or.inl hbegan
    | inr hbehind => exact Or.inr ⟨Nat.zero_le _, hbehind⟩
  · intro ⟨polled, completed⟩ w hw
    rcases hw with hbegan | ⟨hpolled, hbehind⟩
    · exact began_rounds hgoal (fun _ _ => Or.inl) (fun _ _ => Or.inl) hbegan
    · dsimp only at hpolled hbehind
      by_cases hbudget : polled < activePollBudget
      · simp only [if_pos hbudget]
        apply wp.seq (differs_rotates (behind_keeps hgoal) hbehind)
        intro differs w ⟨hdiffers, hw⟩
        subst hdiffers
        apply wp.seq (popReady_rotates hgoal hw)
        intro popped w ⟨key, hpopped, hkey⟩
        subst hpopped
        rcases hkey with ⟨hgoalKey, hunpolled⟩ | ⟨hne, hrival⟩
        · subst hgoalKey
          exact goalRound hgoal (polled, completed) hunpolled
        · exact rivalRound hgoal hrivals hbudget hne hrival
      · simp only [if_neg hbudget]
        have hfull : polled = activePollBudget :=
          Nat.le_antisymm hpolled (Nat.le_of_not_lt hbudget)
        subst hfull
        exact wp.done (Or.inr hbehind)

theorem poll_rotates (hrivals : (w₀.sched.rivals goal).Nodup)
    (hw : Approaching w₀ goal total w) :
    wp (rotation V A turn w₀ goal) (Queue.poll turn)
      (fun _ => Approaching w₀ goal (total + activePollBudget))
      (fun _ => True) w := by
  have hkeeps : (trailing V).Keeps (rotation V A turn w₀ goal)
      (Approaching w₀ goal (total + activePollBudget)) :=
    approaching_keeps hgoal
  apply wp.seq (held_rotates (approaching_keeps hgoal) hw)
  intro held w ⟨hheld, hw⟩
  subst hheld
  apply wp.seq (drain_rotates hgoal hrivals hw)
  intro completed w hw
  cases completed with
  | none => exact wp.pure hw
  | some completed =>
      apply wp.seq (hkeeps.perform (.differs turn.expectedMode) rfl w hw)
      intro differs w hw
      cases differs with
      | true => exact wp.pure hw
      | false =>
          apply wp.seq (hkeeps.perform (.sched (.readyIsEmpty turn)) rfl w hw)
          intro empty w hw
          cases empty with
          | true => cases completed <;> exact wp.pure hw
          | false =>
              apply wp.seq (hkeeps.perform .wakeTask rfl w hw)
              intro _ w hw
              exact wp.pure hw

end Drain

end Loac

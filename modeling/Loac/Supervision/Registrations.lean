import Loac.Supervision

/-!
# The ledger of registrations

Every child that was ever registered is either still retained or has ended,
and the sticky subtree status has taken in what each of the latter published.
-/

namespace Loac

namespace Kin

/-- The child has ended, and the sticky status knows how. -/
def Noted (kin : Kin) (key : Key) : Prop :=
  exists status, (kin.children key).mode = .exited status ∧
    (status.subtree = .unconfirmed -> kin.subtree = .unconfirmed)

def Truthful (kin : Kin) (event : ChildExit) : Prop :=
  event.child < kin.next ∧ (kin.children event.child).mode = .exited event.status

structure Faithful (kin : Kin) : Prop where
  actors : forall key, key ∈ kin.actors -> key < kin.next
  events : forall event, event ∈ kin.events -> kin.Truthful event
  noted : forall key, key < kin.next -> key ∉ kin.actors -> kin.Noted key
  cause : kin.subtree = .unconfirmed ->
    exists key status, key < kin.next ∧
      (kin.children key).mode = .exited status ∧ status.subtree = .unconfirmed

/-- Every retained child was asked to end in a way it cannot refuse. -/
def Hunted (kin : Kin) : Prop :=
  forall key, key ∈ kin.actors -> (kin.children key).mode.isHard = true

/-!
## What children do

A step of a child changes neither the registrations nor the sticky status.
-/

structure Follows (kin kin' : Kin) : Prop where
  actors : kin'.actors = kin.actors
  next : kin'.next = kin.next
  subtree : kin'.subtree = kin.subtree
  modes : forall key,
    (kin'.children key).mode = (kin.children key).mode ∨
      (kin.children key).mode.Advances (kin'.children key).mode
  events : forall event, event ∈ kin'.events ->
    event ∈ kin.events ∨ kin'.Truthful event

theorem Follows.refl (kin : Kin) : kin.Follows kin where
  actors := rfl
  next := rfl
  subtree := rfl
  modes := fun _ => Or.inl rfl
  events := fun _ h => Or.inl h

theorem Follows.exited {kin kin' : Kin} (h : kin.Follows kin') {key : Key}
    {status : ExitStatus} (hexited : (kin.children key).mode = .exited status) :
    (kin'.children key).mode = .exited status := by
  cases h.modes key with
  | inl heq => rw [heq, hexited]
  | inr hadvances => exact absurd hexited (hadvances.not_exited status)

theorem Follows.isHard {kin kin' : Kin} (h : kin.Follows kin') {key : Key}
    (hhard : (kin.children key).mode.isHard = true) :
    (kin'.children key).mode.isHard = true := by
  cases h.modes key with
  | inl heq => rw [heq, hhard]
  | inr hadvances => exact hadvances.isHard hhard

theorem Follows.truthful {kin kin' : Kin} (h : kin.Follows kin')
    {event : ChildExit} (hevent : kin.Truthful event) : kin'.Truthful event := by
  constructor
  · rw [h.next]
    exact hevent.left
  · exact h.exited hevent.right

theorem Follows.noted {kin kin' : Kin} (h : kin.Follows kin') {key : Key}
    (hnoted : kin.Noted key) : kin'.Noted key := by
  rcases hnoted with ⟨status, hexited, hsubtree⟩
  refine ⟨status, h.exited hexited, ?_⟩
  rw [h.subtree]
  exact hsubtree

theorem Follows.hunted {kin kin' : Kin} (h : kin.Follows kin')
    (hhunted : kin.Hunted) : kin'.Hunted := by
  intro key hkey
  rw [h.actors] at hkey
  exact h.isHard (hhunted key hkey)

theorem Follows.faithful {kin kin' : Kin} (h : kin.Follows kin')
    (hfaithful : kin.Faithful) : kin'.Faithful where
  actors := by
    rw [h.actors, h.next]
    exact hfaithful.actors
  events := by
    intro event hevent
    cases h.events event hevent with
    | inl hold => exact h.truthful (hfaithful.events event hold)
    | inr hnew => exact hnew
  noted := by
    intro key hlt hmem
    rw [h.next] at hlt
    rw [h.actors] at hmem
    exact h.noted (hfaithful.noted key hlt hmem)
  cause := by
    intro hsubtree
    rw [h.subtree] at hsubtree
    rcases hfaithful.cause hsubtree with ⟨key, status, hlt, hexited, hstatus⟩
    rw [h.next]
    exact ⟨key, status, hlt, h.exited hexited, hstatus⟩

theorem children_setChild (kin : Kin) (key key' : Key) (child : Child) :
    (kin.setChild key child).children key' =
      if key' = key then child else kin.children key' := by
  exact Function.update_apply ..

theorem setChild_follows {kin : Kin} {key : Key} {child : Child}
    (h : child.mode = (kin.children key).mode ∨
      (kin.children key).mode.Advances child.mode) :
    kin.Follows (kin.setChild key child) where
  actors := rfl
  next := rfl
  subtree := rfl
  modes := by
    intro key'
    rw [children_setChild]
    by_cases heq : key' = key
    · rw [if_pos heq, heq]
      exact h
    · rw [if_neg heq]
      exact Or.inl rfl
  events := fun _ h => Or.inl h

theorem advance_follows {kin : Kin} {key : Key} {next : Mode}
    (h : next = (kin.children key).mode ∨
      (kin.children key).mode.Advances next) :
    kin.Follows (kin.advance key next).1 := by
  have hfollows : kin.Follows
      (kin.setChild key { kin.children key with mode := next }) :=
    setChild_follows h
  unfold advance
  by_cases hmode : (kin.children key).mode = next
  · rw [if_pos hmode]
    exact Follows.refl kin
  · rw [if_neg hmode]
    by_cases hwatch : kin.watch = some key
    · rw [if_pos hwatch]
      exact { hfollows with }
    · rw [if_neg hwatch]
      exact hfollows

theorem request_follows (kin : Kin) (key : Key) (shutdown : Shutdown) :
    kin.Follows (kin.request key shutdown) :=
  advance_follows ((ChildAct.request shutdown).next_advances _)

theorem mode_advance (kin : Kin) (key : Key) (next : Mode) :
    ((kin.advance key next).1.children key).mode = next := by
  unfold advance
  by_cases hmode : (kin.children key).mode = next
  · rw [if_pos hmode]
    exact hmode
  · rw [if_neg hmode]
    by_cases hwatch : kin.watch = some key
    · simp [hwatch, children_setChild]
    · simp [hwatch, children_setChild]

theorem request_kill_isHard (kin : Kin) (key : Key) :
    ((kin.request key .kill).children key).mode.isHard = true := by
  unfold request
  rw [mode_advance]
  exact Loac.request_kill_isHard _

theorem publish_follows {kin kin' : Kin} {key : Key} (hlt : key < kin.next)
    (h : kin.publish key = some kin') : kin.Follows kin' := by
  unfold publish at h
  split at h
  case h_1 status hmode _ =>
    cases h
    have hfollows : kin.Follows
        (kin.setChild key { kin.children key with published := [status] }) :=
      setChild_follows (Or.inl rfl)
    exact {
      actors := rfl
      next := rfl
      subtree := rfl
      modes := hfollows.modes
      events := by
        intro event hevent
        cases List.mem_append.mp hevent with
        | inl hold => exact Or.inl hold
        | inr hnew =>
            rw [List.mem_singleton] at hnew
            subst hnew
            exact Or.inr ⟨hlt, hfollows.exited hmode⟩ }
  case h_2 => cases h

theorem pollExit_follows (kin : Kin) (reception : Reception) :
    kin.Follows (kin.pollExit reception).1 := by
  unfold pollExit
  by_cases hrefused : reception = .refused
  · rw [if_pos hrefused]
    exact Follows.refl kin
  · rw [if_neg hrefused]
    split
    case h_1 => exact { Follows.refl kin with }
    case h_2 event rest hevents =>
      have htail : forall event', event' ∈ rest -> event' ∈ kin.events := by
        intro event' hmem
        rw [hevents]
        exact List.mem_cons_of_mem _ hmem
      exact { Follows.refl kin with
        events := fun event' hmem => Or.inl (htail event' hmem) }

theorem refused_of_pollExit {kin : Kin} {reception : Reception}
    (hevents : kin.events ≠ []) (h : (kin.pollExit reception).2 = none) :
    reception = .refused := by
  by_contra hregular
  rw [pollExit, if_neg hregular] at h
  cases hqueued : kin.events with
  | nil => exact hevents hqueued
  | cons event rest =>
      rw [hqueued] at h
      cases h

theorem pollExit_some {kin : Kin} {reception : Reception} {event : ChildExit}
    (h : (kin.pollExit reception).2 = some event) :
    KinOp.pollExit.refuses reception = false ∧ event ∈ kin.events := by
  unfold pollExit at h
  by_cases hrefused : reception = .refused
  · rw [if_pos hrefused] at h
    cases h
  · rw [if_neg hrefused] at h
    refine ⟨decide_eq_false hrefused, ?_⟩
    cases hevents : kin.events with
    | nil =>
        rw [hevents] at h
        cases h
    | cons first rest =>
        rw [hevents] at h
        cases h
        exact List.mem_cons_self ..

theorem pollExit_registers {kin : Kin} {reception : Reception}
    (hregular : reception ≠ .refused)
    (h : (kin.pollExit reception).2 = none) :
    (kin.pollExit reception).1 = { kin with waker := true } ∧ kin.events = [] := by
  rw [pollExit, if_neg hregular] at h ⊢
  cases hevents : kin.events with
  | nil => exact ⟨rfl, rfl⟩
  | cons event rest =>
      rw [hevents] at h
      cases h

/-!
## What the parent does
-/

theorem new_faithful : Kin.new.Faithful where
  actors := by simp [new]
  events := by simp [new]
  noted := by simp [new]
  cause := by simp [new]

theorem spawn_faithful {kin : Kin} (h : kin.Faithful) : kin.spawn.Faithful := by
  have hchild : forall key, key < kin.next ->
      kin.spawn.children key = kin.children key := by
    intro key hlt
    show (kin.setChild kin.next _).children key = _
    rw [children_setChild, if_neg (Nat.ne_of_lt hlt)]
  constructor
  · intro key hkey
    cases List.mem_append.mp hkey with
    | inl hold => exact Nat.lt_succ_of_lt (h.actors key hold)
    | inr hnew =>
        rw [List.mem_singleton.mp hnew]
        exact Nat.lt_succ_self _
  · intro event hevent
    have hold := h.events event hevent
    refine ⟨Nat.lt_succ_of_lt hold.left, ?_⟩
    rw [hchild _ hold.left]
    exact hold.right
  · intro key hlt hmem
    have hne : key ≠ kin.next := by
      intro heq
      exact hmem (List.mem_append_right _ (List.mem_singleton.mpr heq))
    have hlt' : key < kin.next :=
      Nat.lt_of_le_of_ne (Nat.le_of_lt_succ hlt) hne
    have hold := h.noted key hlt'
      (fun hkey => hmem (List.mem_append_left _ hkey))
    unfold Noted
    rw [hchild key hlt']
    exact hold
  · intro hsubtree
    rcases h.cause hsubtree with ⟨key, status, hlt, hexited, hstatus⟩
    refine ⟨key, status, Nat.lt_succ_of_lt hlt, ?_, hstatus⟩
    rw [hchild key hlt]
    exact hexited

theorem spawn_truthful {kin : Kin} {event : ChildExit}
    (h : kin.Truthful event) : kin.spawn.Truthful event := by
  refine ⟨Nat.lt_succ_of_lt h.left, ?_⟩
  show ((kin.setChild kin.next _).children event.child).mode = _
  rw [children_setChild, if_neg (Nat.ne_of_lt h.left)]
  exact h.right

@[simp] theorem actors_note (kin : Kin) (status : ExitStatus) :
    (kin.note status).actors = kin.actors := by
  unfold note
  cases status.subtree <;> rfl

@[simp] theorem next_note (kin : Kin) (status : ExitStatus) :
    (kin.note status).next = kin.next := by
  unfold note
  cases status.subtree <;> rfl

@[simp] theorem children_note (kin : Kin) (status : ExitStatus) :
    (kin.note status).children = kin.children := by
  unfold note
  cases status.subtree <;> rfl

@[simp] theorem events_note (kin : Kin) (status : ExitStatus) :
    (kin.note status).events = kin.events := by
  unfold note
  cases status.subtree <;> rfl

theorem subtree_note (kin : Kin) (status : ExitStatus) :
    (kin.note status).subtree = .unconfirmed <->
      kin.subtree = .unconfirmed ∨ status.subtree = .unconfirmed := by
  unfold note
  cases hstatus : status.subtree with
  | terminated => simp
  | unconfirmed => simp

theorem note_noted {kin : Kin} {key : Key} {status : ExitStatus}
    (h : kin.Noted key) : (kin.note status).Noted key := by
  rcases h with ⟨status', hexited, hsubtree⟩
  refine ⟨status', ?_, ?_⟩
  · rw [children_note]
    exact hexited
  · intro hstatus
    exact (subtree_note kin status).mpr (Or.inl (hsubtree hstatus))

theorem noted_note {kin : Kin} {key : Key} {status : ExitStatus}
    (h : (kin.children key).mode = .exited status) :
    (kin.note status).Noted key := by
  refine ⟨status, ?_, ?_⟩
  · rw [children_note]
    exact h
  · intro hstatus
    exact (subtree_note kin status).mpr (Or.inr hstatus)

theorem note_faithful {kin : Kin} (h : kin.Faithful) {key : Key}
    {status : ExitStatus} (hlt : key < kin.next)
    (hexited : (kin.children key).mode = .exited status) :
    (kin.note status).Faithful where
  actors := by simpa using h.actors
  events := by simpa [Truthful] using h.events
  noted := by
    intro key hlt hmem
    rw [next_note] at hlt
    rw [actors_note] at hmem
    exact note_noted (h.noted key hlt hmem)
  cause := by
    intro hsubtree
    simp only [next_note, children_note]
    cases (subtree_note kin status).mp hsubtree with
    | inl hold => exact h.cause hold
    | inr hstatus => exact ⟨key, status, hlt, hexited, hstatus⟩

end Kin

/-!
## Refused spawns
-/

/-- A finite limit leaves no room for another registration. -/
def Kin.AtLimit (limit : Option Nat) (kin : Kin) : Prop :=
  exists n, limit = some n ∧ n <= kin.actors.length

theorem Kin.admitChild_error {T : Type} {kin : Kin} {limit : Option Nat}
    (value : T) (h : kin.AtLimit limit) :
    kin.admitChild limit value = .error { value := value } := by
  rcases h with ⟨n, hlimit, hfull⟩
  subst hlimit
  exact if_neg (Nat.not_lt.mpr hfull)

theorem Kin.admitChild_ok {T : Type} {kin : Kin} {limit : Option Nat}
    (value : T) (h : ¬ kin.AtLimit limit) :
    kin.admitChild limit value = .ok value := by
  cases limit with
  | none => rfl
  | some n =>
      have hroom : kin.actors.length < n :=
        Nat.lt_of_not_le (fun hfull => h ⟨n, rfl, hfull⟩)
      exact if_pos hroom

theorem Kin.room_of_not_atLimit {kin : Kin} {limit : Option Nat}
    (h : ¬ kin.AtLimit limit) :
    forall n, limit = some n -> kin.actors.length < n :=
  fun n hlimit => Nat.lt_of_not_le (fun hfull => h ⟨n, hlimit, hfull⟩)

namespace ActorScope

variable {Args Options : Type}

/--
A spawn at the limit gives its inputs back, opens no configuration and registers
nothing.  Any other spawn opens one configuration and registers one child.
-/
theorem spawnChildWith_eq (limit : Option Nat) (kin : Kin) (args : Args)
    (options : Options) :
    (kin.AtLimit limit -> spawnChildWith limit kin args options =
      (kin, [], .error { value := (args, options) })) ∧
    (¬ kin.AtLimit limit -> spawnChildWith limit kin args options =
      (kin.spawn, [{ args := args, options := options }], .ok kin.next)) := by
  unfold spawnChildWith
  constructor
  · intro hfull
    rw [Kin.admitChild_error _ hfull]
  · intro hroom
    rw [Kin.admitChild_ok _ hroom]

theorem spawnChild_eq (limit : Option Nat) (kin : Kin) (args : Args)
    (default : Options) :
    (kin.AtLimit limit -> spawnChild limit kin args default =
      (kin, [], .error { value := args })) ∧
    (¬ kin.AtLimit limit -> spawnChild limit kin args default =
      (kin.spawn, [{ args := args, options := default }], .ok kin.next)) := by
  unfold spawnChild
  constructor
  · intro hfull
    rw [Kin.admitChild_error _ hfull]
  · intro hroom
    rw [Kin.admitChild_ok _ hroom]

end ActorScope

/-- A spawn registers one child, or it is refused and changes nothing. -/
theorem ActorScope.kin_spawnChild {Args Options : Type} (limit : Option Nat)
    (kin : Kin) (args : Args) (default : Options) :
    (spawnChild limit kin args default).1 = kin ∨
      (spawnChild limit kin args default).1 = kin.spawn := by
  unfold spawnChild
  cases kin.admitChild limit args with
  | ok _ => exact Or.inr rfl
  | error _ => exact Or.inl rfl

/-!
## Operations
-/

/-- What the parent must know before it changes its registrations. -/
def KinOp.Demands {α : Type} : KinOp α -> Kin -> Prop
  | .reap event, kin => kin.Truthful event
  | .wait key, kin => key < kin.next
  | .clear, kin => forall key, key ∈ kin.actors -> kin.Noted key
  | _, _ => True

theorem KinOp.exec_faithful {α : Type} (op : KinOp α) (reception : Reception)
    {kin : Kin} (h : kin.Faithful) (hdemands : op.Demands kin) :
    (op.exec reception kin).1.Faithful := by
  cases op with
  | pollExit => exact (kin.pollExit_follows reception).faithful h
  | reap event =>
      show (kin.reap event).1.Faithful
      unfold Kin.reap
      by_cases hmem : event.child ∈ kin.actors
      · rw [if_pos hmem]
        have hnote := Kin.note_faithful h hdemands.left hdemands.right
        exact {
          actors := by
            intro key hkey
            have hold := List.mem_of_mem_filter hkey
            rw [Kin.next_note]
            exact h.actors key hold
          events := hnote.events
          noted := by
            intro key hlt hkey
            by_cases heq : key = event.child
            · subst heq
              exact Kin.noted_note hdemands.right
            · apply hnote.noted key hlt
              intro hold
              apply hkey
              rw [Kin.actors_note] at hold
              exact List.mem_filter.mpr ⟨hold, by simpa using heq⟩
          cause := hnote.cause }
      · rw [if_neg hmem]
        exact { h with }
  | actors => exact h
  | request key shutdown => exact (kin.request_follows key shutdown).faithful h
  | wait key =>
      show (kin.wait key).1.Faithful
      unfold Kin.wait
      cases hmode : (kin.children key).mode with
      | exited status => exact { Kin.note_faithful h hdemands hmode with }
      | _ => exact { h with }
  | clear =>
      exact {
        actors := by
          intro key hkey
          cases hkey
        events := h.events
        noted := by
          intro key hlt _
          by_cases hkey : key ∈ kin.actors
          · exact hdemands key hkey
          · exact h.noted key hlt hkey
        cause := h.cause }
  | subtree => exact h

end Loac

import Loac.Streaming.Channel

/-!
# Items and wakes

Every item that was written is with the caller, or thrown away by it, or still
in the channel, in the order of the writes.  A caller that is parked waits for
something that will wake it.
-/

namespace Loac

open Interleave Interleave.Prog

variable {T F α : Type} {s s' : Exchange T F} {act : HandlerAct T F}
  {kept : Prop}

/-!
## What a handler does
-/

structure Handled (s s' : Exchange T F) : Prop where
  held : s'.held = s.held
  finishing : s'.finishing = s.finishing
  received : s'.received = s.received
  heard : s'.heard = s.heard
  discarded : s'.discarded = s.discarded
  steps : s'.steps = s.steps
  task : s.task = true -> s'.task = true
  items : s'.items = s.items ∧ s'.written = s.written ∨
    s.handling = .running ∧ s.out = .held ∧ s.held = true ∧
      s.items.length < itemSlots ∧ exists item,
        s'.items = s.items ++ [item] ∧ s'.written = s.written ++ [item]
  out : s.out = .dropped -> s'.out = .dropped
  final : s.isDecided = true -> s'.final = s.final
  itemWaker : s'.itemWaker = s.itemWaker ∧ s'.items = s.items ∧
      (s'.out = .dropped -> s.out = .dropped) ∨
    s'.itemWaker = false ∧ (s.itemWaker = true -> s'.task = true)
  finalWaker : s'.finalWaker = s.finalWaker ∧ s'.final = s.final ∨
    s'.finalWaker = false ∧ (s.finalWaker = true -> s'.task = true)

/-!
## What always holds
-/

/-- The most that a caller does to finish once there is a final value, or none. -/
def finishSteps : Nat := 4 * itemSlots + 8

def Agreed : Handling F -> FinalChannel F -> Prop
  | .running, final => final = .waiting
  | .returned value, final => final = .sent value
  | .dropped, final => final = .waiting ∨ final = .closed

structure Carrying (s : Exchange T F) : Prop where
  ledger : s.received ++ s.discarded ++ s.items = s.written
  keeps : s.finishing = false -> s.held = true -> s.discarded = []
  slots : s.items.length <= itemSlots
  full : s.blocked = true -> s.items.length = itemSlots
  writing : s.write ≠ none -> s.handling = .running ∧ s.out = .held
  itemWaker : s.itemWaker = true -> s.items = [] ∧ s.out ≠ .dropped
  finalWaker : s.finalWaker = true -> s.final = .waiting
  agreed : Agreed s.handling s.final
  idle : (s.finishing && s.isDecided) = false -> s.steps = 0
  bounded : s.steps <= finishSteps

structure Regular (kept : Prop) (s : Exchange T F) : Prop
    extends Carrying s where
  heard : s.heard.filterMap ItemAnswer.item <+: s.received
  ends : forall before heard after, s.heard = before ++ heard :: after ->
    heard.isEnd = true ->
      s.out = .dropped ∧ before.filterMap ItemAnswer.item = s.written
  answered : kept -> .recv none ∉ s.heard

theorem Exchange.new_sound : Regular kept (Exchange.new : Exchange T F) := by
  constructor
  · constructor <;> simp [Exchange.new, Agreed]
  · simp [Exchange.new]
  · simp [Exchange.new]
  · simp [Exchange.new]

theorem Carrying.handled (h : Carrying s') (hs : Regular kept s)
    (hstep : Handled s s') : Regular kept s' where
  toCarrying := h
  heard := by
    rw [hstep.heard, hstep.received]
    exact hs.heard
  ends := by
    intro before heard after hheard hend
    rw [hstep.heard] at hheard
    have hended := hs.ends before heard after hheard hend
    refine ⟨hstep.out hended.left, ?_⟩
    cases hstep.items with
    | inl hsame =>
        rw [hsame.right]
        exact hended.right
    | inr hwrites =>
        rw [hended.left] at hwrites
        cases hwrites.right.left
  answered := by
    rw [hstep.heard]
    exact hs.answered

theorem Agreed.abandon {handling : Handling F} {final : FinalChannel F}
    (h : Agreed handling final) : Agreed handling.abandon final := by
  cases handling with
  | running => exact Or.inl h
  | returned value => exact h
  | dropped => exact h

attribute [local grind] Agreed Exchange.isDecided Exchange.isRunning
  Exchange.wakeItems Exchange.wakeFinal

/-!
The writes and the drops of a handler change several things at once, and the
others only one.
-/

theorem Exchange.pollWrite_carries {item : T} (hs : Carrying s)
    (hwrite : s.write = some item) : Carrying (s.pollWrite item) := by
  unfold Exchange.pollWrite
  rcases hs with ⟨_, _, _, _, _, _, _, _, _, _⟩
  split
  · constructor <;> grind
  · split
    · constructor <;> grind
    · constructor <;> grind

theorem Exchange.pollWrite_handled {item : T} (hs : Carrying s)
    (hwrite : s.write = some item) : Handled s (s.pollWrite item) := by
  have hwriting := hs.writing (by rw [hwrite]; exact Option.some_ne_none item)
  unfold Exchange.pollWrite
  split
  · constructor <;> grind
  · split
    · constructor <;> grind
    · constructor <;> grind

theorem Exchange.dropWriter_carries (hs : Carrying s) :
    Carrying s.dropWriter := by
  unfold Exchange.dropWriter
  rcases hs with ⟨_, _, _, _, _, _, _, _, _, _⟩
  constructor <;> grind

theorem Exchange.dropWriter_handled (s : Exchange T F) :
    Handled s s.dropWriter := by
  unfold Exchange.dropWriter
  constructor <;> grind

theorem Exchange.dropFuture_carries (hs : Carrying s) :
    Carrying s.dropFuture := by
  have hagreed := hs.agreed.abandon
  unfold Exchange.dropFuture
  split
  · rcases Exchange.dropWriter_carries hs with ⟨_, _, _, _, _, _, _, _, _, _⟩
    constructor <;> grind [Exchange.dropWriter]
  · rcases hs with ⟨_, _, _, _, _, _, _, _, _, _⟩
    constructor <;> grind

theorem Exchange.dropFuture_handled (s : Exchange T F) :
    Handled s s.dropFuture := by
  unfold Exchange.dropFuture
  split
  · exact { Exchange.dropWriter_handled s with }
  · constructor <;> grind

theorem Exchange.running_of_isRunning (h : s.isRunning = true) :
    s.handling = .running := by
  unfold Exchange.isRunning at h
  split at h
  · assumption
  · cases h

theorem HandlerAct.carries (hs : Carrying s) (h : act.exec s = some s') :
    Carrying s' := by
  cases act with
  | pollWrite =>
      rw [HandlerAct.exec] at h
      split at h
      · cases h
        exact Exchange.pollWrite_carries hs (by assumption)
      · cases h
  | dropWriter =>
      rw [HandlerAct.exec] at h
      split at h
      · cases h
        exact Exchange.dropWriter_carries hs
      · cases h
  | dropFuture =>
      cases h
      exact Exchange.dropFuture_carries hs
  | wakeCaller =>
      cases h
      exact { hs with }
  | write item =>
      rw [HandlerAct.exec] at h
      split at h
      · rename_i hguard
        cases h
        exact {
          hs with
          writing := fun _ =>
            ⟨Exchange.running_of_isRunning hguard.left, hguard.right.left⟩ }
      · cases h
  | cancelWrite =>
      rw [HandlerAct.exec] at h
      split at h
      · cases h
        exact {
          hs with
          full := by intro hblocked; cases hblocked
          writing := fun hwrite => absurd rfl hwrite }
      · cases h
  | forgetWriter =>
      rw [HandlerAct.exec] at h
      split at h
      · rename_i hguard
        cases h
        exact {
          hs with
          writing := fun hwrite => absurd hguard.right hwrite
          itemWaker := fun hwaker =>
            ⟨(hs.itemWaker hwaker).left, StreamOut.noConfusion⟩ }
      · cases h
  | returns value =>
      rw [HandlerAct.exec] at h
      split at h
      · rename_i hguard
        cases h
        have hrunning := Exchange.running_of_isRunning hguard
        have hwaiting : s.final = .waiting := by
          have hagreed := hs.agreed
          rw [hrunning] at hagreed
          exact hagreed
        exact {
          hs with
          full := by intro hblocked; cases hblocked
          writing := fun hwrite => absurd rfl hwrite
          finalWaker := by intro hwaker; cases hwaker
          agreed := rfl
          idle := by
            intro _
            apply hs.idle
            unfold Exchange.isDecided
            rw [hwaiting, Bool.and_false] }
      · cases h
  | dropFinal =>
      rw [HandlerAct.exec] at h
      split at h
      · rename_i hdropped
        cases h
        exact {
          hs with
          finalWaker := by intro hwaker; cases hwaker
          agreed := by
            change Agreed s.handling _
            rw [hdropped]
            exact Or.inr rfl
          idle := by
            intro hidle
            apply hs.idle
            change (s.finishing && true) = false at hidle
            rw [Bool.and_true] at hidle
            rw [hidle, Bool.false_and] }
      · cases h

theorem HandlerAct.handled (hs : Carrying s) (h : act.exec s = some s') :
    Handled s s' := by
  cases act with
  | pollWrite =>
      rw [HandlerAct.exec] at h
      split at h
      · cases h
        exact Exchange.pollWrite_handled hs (by assumption)
      · cases h
  | dropWriter =>
      rw [HandlerAct.exec] at h
      split at h
      · cases h
        exact Exchange.dropWriter_handled s
      · cases h
  | dropFuture =>
      cases h
      exact Exchange.dropFuture_handled s
  | wakeCaller =>
      cases h
      constructor <;> grind
  | _ =>
      have hagreed := hs.agreed
      rw [HandlerAct.exec] at h
      split at h
      · cases h
        constructor <;> grind
      · cases h

theorem HandlerAct.sound (hs : Regular kept s) (h : act.exec s = some s') :
    Regular kept s' :=
  (HandlerAct.carries hs.toCarrying h).handled hs
    (HandlerAct.handled hs.toCarrying h)

/-!
## What a caller does
-/

/-- There is room for one more operation of a caller that could be done. -/
def Exchange.Affords (s : Exchange T F) : Prop :=
  s.finishing = true -> s.isDecided = true -> s.steps < finishSteps

theorem Exchange.count_sound (hs : Regular kept s) (hafford : s.Affords) :
    Regular kept s.count := by
  unfold Exchange.count
  split
  · rename_i hboth
    have hboth := Bool.and_eq_true_iff.mp hboth
    exact {
      hs with
      idle := by
        intro hidle
        rw [← Bool.not_eq_true] at hidle
        exact absurd (Bool.and_eq_true_iff.mpr hboth) hidle
      bounded := hafford hboth.left hboth.right }
  · exact hs

theorem Exchange.pop_sound {item : T} {rest : List T} (hs : Regular kept s)
    (hheld : s.held = true) (hitems : s.items = item :: rest) :
    Regular kept (s.pop item rest) := by
  have hcarrying : Carrying (s.pop item rest) := by
    rcases hs.toCarrying with ⟨_, _, _, _, _, _, _, _, _, _⟩
    unfold Exchange.pop
    split
    · constructor <;> grind
    · constructor <;> grind
  have hheard : (s.pop item rest).heard.filterMap ItemAnswer.item <+:
      (s.pop item rest).received := by
    unfold Exchange.pop
    split
    · exact hs.heard
    · exact hs.heard.trans (List.prefix_append ..)
  revert hcarrying hheard
  unfold Exchange.pop
  split
  · exact fun hcarrying hheard => ⟨hcarrying, hheard, hs.ends, hs.answered⟩
  · exact fun hcarrying hheard => ⟨hcarrying, hheard, hs.ends, hs.answered⟩

theorem Exchange.pollRecv_sound (hs : Regular kept s) (hheld : s.held = true) :
    Regular kept s.pollRecv.1 := by
  unfold Exchange.pollRecv
  split
  · exact Exchange.pop_sound hs hheld (by assumption)
  · split
    · exact hs
    · exact { hs with itemWaker := fun _ => ⟨by assumption, by assumption⟩ }

theorem Exchange.tryRecv_sound (hs : Regular kept s) (hheld : s.held = true) :
    Regular kept s.tryRecv.1 := by
  unfold Exchange.tryRecv
  split
  · exact Exchange.pop_sound hs hheld (by assumption)
  · exact hs

theorem Exchange.pollFinal_sound (hs : Regular kept s) :
    Regular kept s.pollFinal.1 := by
  unfold Exchange.pollFinal
  split
  · exact hs
  · exact hs
  · exact { hs with finalWaker := fun _ => by assumption }

theorem Exchange.dropReply_sound (hs : Regular kept s) :
    Regular kept s.dropReply := by
  have hcarrying : Carrying s.dropReply := by
    rcases hs.toCarrying with ⟨_, _, _, _, _, _, _, _, _, _⟩
    unfold Exchange.dropReply
    constructor <;> grind
  exact ⟨hcarrying, hs.heard, hs.ends, hs.answered⟩

@[simp]
theorem Exchange.count_held (s : Exchange T F) : s.count.held = s.held := by
  unfold Exchange.count
  split <;> rfl

def StreamOp.isNext : StreamOp T F α -> Bool
  | .next => true
  | _ => false

def StreamOp.isSuspend : StreamOp T F α -> Bool
  | .suspend => true
  | _ => false

def StreamOp.isHear : StreamOp T F α -> Bool
  | .hear _ => true
  | _ => false

def Attended (s : Exchange T F) : Prop :=
  s.task = false ->
    (s.itemWaker = true ∨ s.items = [] ∧ s.out = .dropped) ∧
      (s.finishing = true -> s.finalWaker = true)

/-- The caller was given everything that left the channel for it. -/
def PassedOn (s : Exchange T F) : Prop :=
  s.received = s.heard.filterMap ItemAnswer.item

/-- The caller is given what was taken out of the channel for it. -/
structure HandedOver (kept : Prop) (heard : ItemAnswer T)
    (s : Exchange T F) : Prop where
  item : s.received = s.heard.filterMap ItemAnswer.item ++ heard.item.toList
  ended : heard.isEnd = true -> s.out = .dropped ∧ s.received = s.written
  answered : kept -> heard ≠ .recv none

/-- What the caller hears was given to it, before it does anything else. -/
def StreamOp.Gives (kept : Prop) : StreamOp T F α -> Exchange T F -> Prop
  | .hear heard, s => HandedOver kept heard s
  | .next, s => PassedOn s
  | _, _ => True

theorem StreamOp.gives_of_finishing {op : StreamOp T F α}
    (hnext : op.isNext = false) (hhear : op.isHear = false) :
    op.Gives kept s := by
  cases op with
  | hear heard => cases hhear
  | next => cases hnext
  | _ => trivial

structure Entitled (kept : Prop) (op : StreamOp T F α) (s : Exchange T F) :
    Prop where
  held : s.held = true
  affords : s.Affords
  reads : s.finishing = true -> op.isNext = false
  attended : op.isSuspend = true -> Attended s
  gives : op.Gives kept s

theorem Exchange.hear_sound {heard : ItemAnswer T} (hs : Regular kept s)
    (h : HandedOver kept heard s) :
    Regular kept { s with heard := s.heard ++ [heard] } where
  ledger := hs.ledger
  keeps := hs.keeps
  slots := hs.slots
  full := hs.full
  writing := hs.writing
  itemWaker := hs.itemWaker
  finalWaker := hs.finalWaker
  agreed := hs.agreed
  idle := hs.idle
  bounded := hs.bounded
  heard := by
    show (s.heard ++ [heard]).filterMap ItemAnswer.item <+: s.received
    rw [h.item, List.filterMap_append]
    cases hitem : heard.item <;> simp [hitem]
  ends := by
    intro before last after hheard hend
    change s.heard ++ [heard] = before ++ last :: after at hheard
    rcases List.eq_nil_or_concat after with hnil | ⟨init, final, hafter⟩
    · subst hnil
      have hlast := List.append_inj' hheard rfl
      cases hlast.right
      rw [← hlast.left]
      have hitem : heard.item = none := by
        cases heard with
        | recv answer => rcases answer with _ | _ | _ <;> first | rfl | cases hend
        | poll poll => cases poll <;> first | rfl | cases hend
      have hreceived := h.item
      rw [hitem, Option.toList_none, List.append_nil] at hreceived
      rw [← hreceived]
      exact h.ended hend
    · subst hafter
      rw [List.concat_eq_append, ← List.cons_append,
        ← List.append_assoc] at hheard
      exact hs.ends before last init (List.append_inj' hheard rfl).left hend
  answered := by
    intro hkept hmem
    rcases List.mem_append.mp hmem with hold | hnew
    · exact hs.answered hkept hold
    · exact h.answered hkept (List.mem_singleton.mp hnew).symm

theorem StreamOp.sound {op : StreamOp T F α} {input : StreamInput} {a : α}
    (hs : Regular kept s) (hop : Entitled kept op s)
    (h : op.exec input s = some (s', a)) : Regular kept s' := by
  have hcount := Exchange.count_sound hs hop.affords
  have hheld : s.count.held = true := (s.count_held).trans hop.held
  cases op with
  | next =>
      have hfinishing : s.finishing = false := by
        cases hf : s.finishing with
        | false => rfl
        | true => cases hop.reads hf
      cases input with
      | act chosen =>
          cases h
          exact {
            hs with
            keeps := fun _ => hs.keeps hfinishing
            idle := fun _ => hs.idle (by rw [hfinishing]; rfl) }
      | _ => cases h
  | hear heard =>
      cases h
      exact Exchange.hear_sound hs hop.gives
  | pollRecv =>
      have hresult : s.count.pollRecv = (s', a) := Option.some.inj h
      have hnext := Exchange.pollRecv_sound hcount hheld
      rw [hresult] at hnext
      exact hnext
  | tryRecv =>
      have hresult : s.count.tryRecv = (s', a) := Option.some.inj h
      have hnext := Exchange.tryRecv_sound hcount hheld
      rw [hresult] at hnext
      exact hnext
  | pollFinal =>
      have hresult : s.count.pollFinal = (s', a) := Option.some.inj h
      have hnext := Exchange.pollFinal_sound hcount
      rw [hresult] at hnext
      exact hnext
  | branch =>
      cases input with
      | branch itemFirst =>
          cases h
          exact hcount
      | _ => cases h
  | suspend =>
      cases input with
      | resume =>
          rw [StreamOp.exec] at h
          split at h
          · cases h
            exact { hcount with }
          · cases h
      | cancel =>
          cases h
          exact hcount
      | _ => cases h
  | dropReply =>
      cases h
      exact Exchange.dropReply_sound hcount

end Loac

import Loac.Course.Keeping

/-!
# Facts that last

Besides its phase, code of the actor task relies on facts that the environment
and most operations leave alone.
-/

namespace Loac

open Interleave

variable {V α : Type} {A : ActorConfig} {w w' : World V} {parts : List Part}

structure Sane (A : ActorConfig) (w : World V) : Prop where
  mode : w.control.mode ≠ .aborting
  replies : A.mailbox = none -> NoReplies w

def Shut (w : World V) : Prop :=
  w.mail.closed = true

def Spent (w : World V) : Prop :=
  w.mail.closed = true ∧ w.mail.queue = []

def Unshut (w : World V) : Prop :=
  w.mail.closed = false

/-!
## The inbox
-/

theorem EnvAct.closed_exec {e : EnvAct} (h : e.exec A w = some w') :
    w'.mail.closed = w.mail.closed := by
  cases e <;> grind [EnvAct.exec, World.transact, World.wakeIf, Mail.reserve,
    Mail.release, Mail.refuse, Mail.admitEnvelope, Mail.abandon,
    Option.map_eq_some_iff]

theorem EnvAct.spent_exec {e : EnvAct} (h : e.exec A w = some w')
    (hspent : Spent w) : Spent w' := by
  refine ⟨(EnvAct.closed_exec h).trans hspent.left, ?_⟩
  rcases hspent with ⟨hclosed, hqueue⟩
  cases e <;> grind [EnvAct.exec, World.transact, World.wakeIf, Mail.reserve,
    Mail.release, Mail.refuse, Mail.admitEnvelope, Mail.abandon,
    Option.map_eq_some_iff]

theorem World.closed_recordReturn (w : World V) (site : UserSite)
    (value : Option V) :
    (w.recordReturn site value).mail.closed = w.mail.closed := by
  unfold World.recordReturn
  split <;> rfl

theorem World.queue_recordReturn (w : World V) (site : UserSite)
    (value : Option V) :
    (w.recordReturn site value).mail.queue = w.mail.queue := by
  unfold World.recordReturn
  split <;> rfl

theorem MailOp.closed_exec {op : MailOp V α} {transport : Transport}
    {mode : Mode} {reception : Reception} {mail : Mail V} (hop : op.part ≠ .closes) :
    (op.exec transport mode reception mail).1.closed = mail.closed := by
  cases op with
  | close => exact absurd rfl hop
  | _ => grind [MailOp.exec, Mail.pollRecv, Mail.tryRecv, Mail.replyIsClosed,
      Mail.reject, Mail.beginDispatch, Mail.beginCompletion, Mail.respond]

theorem MailOp.queue_exec {op : MailOp V α} {transport : Transport}
    {mode : Mode} {reception : Reception} {mail : Mail V} (hqueue : mail.queue = []) :
    (op.exec transport mode reception mail).1.queue = [] := by
  cases op <;> grind [MailOp.exec, Mail.pollRecv, Mail.tryRecv,
    Mail.replyIsClosed, Mail.reject, Mail.beginDispatch, Mail.beginCompletion,
    Mail.respond]

theorem Op.closed_exec {op : Op V α} {input : Input V} {a : α}
    (hop : op.part ≠ .closes) (h : op.exec A input w = some (w', a)) :
    w'.mail.closed = w.mail.closed := by
  cases op with
  | mail op =>
      cases h
      exact MailOp.closed_exec hop
  | user site =>
      cases input with
      | user act =>
          cases act <;> grind [Op.exec, World.userStep,
            World.closed_recordReturn]
      | _ => cases h
  | spawn => rw [Op.spawn_exec h]
  | _ => grind [Op.exec, World.wakeIf, World.transact]

theorem Op.queue_exec {op : Op V α} {input : Input V} {a : α}
    (hqueue : w.mail.queue = []) (h : op.exec A input w = some (w', a)) :
    w'.mail.queue = [] := by
  cases op with
  | mail op =>
      cases h
      exact MailOp.queue_exec hqueue
  | user site =>
      cases input with
      | user act =>
          cases act <;> grind [Op.exec, World.userStep,
            World.queue_recordReturn]
      | _ => cases h
  | spawn =>
      rw [Op.spawn_exec h]
      exact hqueue
  | _ => grind [Op.exec, World.wakeIf, World.transact]

theorem Op.shut_exec {op : Op V α} {input : Input V} {a : α}
    (hshut : Shut w) (h : op.exec A input w = some (w', a)) : Shut w' := by
  by_cases hop : op.part = .closes
  · cases op with
    | mail op =>
        cases op with
        | close =>
            cases h
            rfl
        | _ => cases hop
    | transact t => cases t <;> cases hop
    | suspend site => cases site <;> cases hop
    | reach point => cases point <;> cases hop
    | user site => cases site <;> cases hop
    | sched op => cases op <;> cases hop
    | kin op => cases op <;> cases hop
    | _ => cases hop
  · exact (Op.closed_exec hop h).trans hshut

theorem shut_lasts : Lasts A parts (Shut (V := V)) where
  env := fun _ _ _ henv hw => (EnvAct.closed_exec henv).trans hw
  op := fun _ _ _ _ _ _ hexec hw => Op.shut_exec hw hexec

theorem spent_lasts : Lasts A parts (Spent (V := V)) where
  env := fun _ _ _ henv hw => EnvAct.spent_exec henv hw
  op := fun _ _ _ _ _ _ hexec hw =>
    ⟨Op.shut_exec hw.left hexec, Op.queue_exec hw.right hexec⟩

theorem unshut_lasts (h : parts.contains .closes = false) :
    Lasts A parts (Unshut (V := V)) where
  env := fun _ _ _ henv hw => (EnvAct.closed_exec henv).trans hw
  op := by
    intro α op input w w' a hop hexec hw
    refine (Op.closed_exec ?_ hexec).trans hw
    intro heq
    rw [heq, h] at hop
    cases hop

/-!
## The mode and the replies
-/

theorem past_lasts {mode : Mode} (hmode : mode ≠ .running) :
    Lasts A parts (Past mode (V := V)) where
  env := fun _ _ _ henv hw => (EnvAct.control_moves henv).past hmode hw
  op := fun _ _ _ _ _ _ hexec hw => (Op.control_moves hexec).past hmode hw

theorem hard_lasts : Lasts A parts (Hard (V := V)) where
  env := fun _ _ _ henv hw => (EnvAct.control_moves henv).isHard hw
  op := fun _ _ _ _ _ _ hexec hw => (Op.control_moves hexec).isHard hw

theorem Op.places_of_part {op : Op V α} (h : op.part ≠ .places) :
    op.places = false := by
  cases op with
  | sched op =>
      cases op with
      | place key future => exact absurd rfl h
      | _ => rfl
  | _ => rfl

theorem Op.ends_of_part {op : Op V α} (h : op.part ≠ .ends) :
    op.ends = false := by
  cases op with
  | transact t =>
      cases t with
      | beginAbort => exact absurd rfl h
      | finish status => exact absurd rfl h
      | _ => rfl
  | _ => rfl

theorem noReplies_lasts (h : parts.contains .places = false) :
    Lasts A parts (NoReplies (V := V)) where
  env := by
    intro e w w' henv hw
    unfold NoReplies
    rw [EnvAct.items_exec henv]
    exact hw
  op := by
    intro α op input w w' a hop hexec hw
    refine Op.isEmpty_exec (Op.places_of_part ?_) hw hexec
    intro heq
    rw [heq, h] at hop
    cases hop

theorem not_aborting_of_presses {mode mode' : Mode}
    (h : mode' = mode ∨ mode.Presses mode') (hmode : mode ≠ .aborting) :
    mode' ≠ .aborting := by
  cases h with
  | inl heq =>
      rw [heq]
      exact hmode
  | inr hpresses => exact hpresses.tentative.left

theorem sane_lasts (hends : parts.contains .ends = false)
    (hplaces : A.mailbox = none -> parts.contains .places = false) :
    Lasts A parts (Sane (V := V) A) where
  env := by
    intro e w w' henv hw
    constructor
    · rcases EnvAct.control_exec henv with hsame | ⟨next, hpresses, hcontrol⟩
      · rw [hsame]
        exact hw.mode
      · rw [hcontrol, Control.commit_mode]
        exact hpresses.tentative.left
    · intro hbox
      have hlasts : Lasts A [] (NoReplies (V := V)) := noReplies_lasts rfl
      exact hlasts.env e w w' henv (hw.replies hbox)
  op := by
    intro α op input w w' a hop hexec hw
    constructor
    · refine not_aborting_of_presses
        (Op.control_presses (Op.ends_of_part ?_) hexec) hw.mode
      intro heq
      rw [heq, hends] at hop
      cases hop
    · intro hbox
      exact (noReplies_lasts (hplaces hbox)).op op input w w' a hop hexec
        (hw.replies hbox)

def actorParts (A : ActorConfig) : List Part :=
  match A.mailbox with
  | some _ => turnParts
  | none => [.looks, .exits]

theorem actorParts_sub {p : Part -> Bool} (h : turnParts.all p = true) :
    (actorParts A).all p = true := by
  unfold actorParts
  cases A.mailbox with
  | some _ => exact h
  | none =>
      have hall := List.all_eq_true.mp h
      exact List.all_eq_true.mpr fun part hpart => hall part (by
        revert part
        decide)

theorem sane_turns : Lasts A (actorParts A) (Sane (V := V) A) := by
  unfold actorParts
  cases hbox : A.mailbox with
  | some _ => exact sane_lasts rfl (fun hnone => by simp [hbox] at hnone)
  | none => exact sane_lasts rfl (fun _ => rfl)

end Loac

import Loac.Containment.Works
import Loac.Delivery.Books
import Loac.Interleave.History
import Loac.Scheduling.Effects

/-!
# The trace of a turn

A turn visits the lanes in a circle from the cursor.  Its trace tells which
lanes it touched, which of them it served, and what else it did on its way.
-/

namespace Loac

open Interleave

variable {V α β : Type} {A : ActorConfig} {w w' : World V}
  {turn : TurnContext} {start lane other : ReplyLane}

/-!
## The circle
-/

def ReplyLane.distance (start lane : ReplyLane) : Nat :=
  if lane = start then 0
  else if lane = start.next then 1
  else 2

namespace ReplyLane

theorem distance_self (lane : ReplyLane) : lane.distance lane = 0 :=
  if_pos rfl

theorem distance_le_two (start lane : ReplyLane) :
    start.distance lane <= 2 := by
  cases start <;> cases lane <;> decide

theorem eq_of_distance (h : start.distance lane = start.distance other) :
    lane = other := by
  revert h
  cases start <;> cases lane <;> cases other <;> decide

theorem distance_next (start lane : ReplyLane) :
    (lane.next = start ∧ start.distance lane = 2) ∨
      (lane.next ≠ start ∧
        start.distance lane.next = start.distance lane + 1) := by
  cases start <;> cases lane <;> decide

theorem distance_closer (h : start.distance lane < start.distance other) :
    lane.next.distance other < start.distance other := by
  revert h
  cases start <;> cases lane <;> cases other <;> decide

end ReplyLane

/-!
## Traces
-/

structure Trace where
  /-- The lanes whose sources were asked, the latest first. -/
  touched : List ReplyLane
  /-- The lanes that had something and gave it. -/
  served : List ReplyLane
  /-- The messages that were taken for a dispatch. -/
  messages : Nat
  /-- The turn woke its own task. -/
  wokeItself : Bool
  /-- A receiver refused its poll. -/
  refused : Bool
  /-- The ready queue was found empty, and nothing was scheduled since. -/
  swept : Bool

namespace Trace

def new : Trace where
  touched := []
  served := []
  messages := 0
  wokeItself := false
  refused := false
  swept := false

def touch (trace : Trace) (lane : ReplyLane) : Trace :=
  { trace with touched := lane :: trace.touched }

def serve (trace : Trace) (lane : ReplyLane) : Trace :=
  { trace.touch lane with served := lane :: trace.served }

/-- A receiver may have refused its poll, which wakes the task. -/
def refuse (trace : Trace) (refused : Bool) : Trace :=
  { trace with
    wokeItself := refused || trace.wokeItself
    refused := refused || trace.refused }

/-- The turn polled a reply or took a message, which costs budget. -/
def Spent (trace : Trace) : Prop :=
  .reply ∈ trace.served ∨ .mailbox ∈ trace.served

end Trace

def traced : {α : Type} -> Op V α -> α -> Trace -> Trace
  | _, .mail (.pollRecv _), .envelope _, trace =>
      { trace.serve .mailbox with messages := trace.messages + 1 }
  | _, .mail (.pollRecv _), _, trace => trace.touch .mailbox
  | _, .sched .popReady, _, trace => trace.touch .reply
  | _, .sched (.takeReady _), true, trace => trace.serve .reply
  | _, .sched (.takeReady _), false, trace => trace.touch .reply
  | _, .kin .pollExit, some _, trace => trace.serve .childExit
  | _, .kin .pollExit, none, trace => trace.touch .childExit
  | _, .wakeTask, _, trace => { trace with wokeItself := true }
  | _, .sched (.readyIsEmpty _), true, trace => { trace with swept := true }
  | _, .sched (.place _ _), _, trace => { trace with swept := false }
  | _, _, _, trace => trace

def Op.asks : Op V α -> Option ReplyLane
  | .mail (.pollRecv _) => some .mailbox
  | .sched .popReady => some .reply
  | .sched (.takeReady _) => some .reply
  | .kin .pollExit => some .childExit
  | _ => none

/-- Whether a receiver refuses its poll for lack of budget. -/
def Op.refuses : Op V α -> Input V -> Bool
  | .mail op, input => op.refuses input.reception
  | .kin op, input => op.refuses input.reception
  | _, _ => false

def tracedOn {α : Type} (op : Op V α) (input : Input V) (a : α)
    (trace : Trace) : Trace :=
  (traced op a trace).refuse (op.refuses input)

abbrev tracing (V : Type) (A : ActorConfig) :
    Machine (Op V) (World V × Trace) (Input V) EnvAct Unit :=
  (machine V A).noting tracedOn

theorem tracing_exec {op : Op V α} {input : Input V} {s s' : World V × Trace}
    {a : α} (h : ((tracing V A).solo β).exec op input s = some (s', a)) :
    op.exec A input s.1 = some (s'.1, a) ∧
      s'.2 = tracedOn op input a s.2 :=
  Machine.noting_exec h

theorem tracing_env {e : EnvAct} {s s' : World V × Trace}
    (h : ((tracing V A).solo β).env e s = some s') :
    e.exec A s.1 = some s'.1 ∧ s'.2 = s.2 := by
  have henv : (tracing V A).env e s = some s' := h
  exact Machine.noting_env henv

/--
What one operation adds to a trace: the lane it asked, and at most that lane
to the served ones, with a message if it is the mailbox.
-/
structure Trace.Adds (asked : Option ReplyLane) (trace trace' : Trace) :
    Prop where
  touched : trace'.touched = asked.toList ++ trace.touched
  served : trace'.served = trace.served ∨
    exists lane, asked = some lane ∧ trace'.served = lane :: trace.served
  messages : trace'.messages = trace.messages ∨
    (asked = some .mailbox ∧ trace'.messages = trace.messages + 1)
  refused : trace'.refused = trace.refused

theorem Trace.Adds.same {trace trace' : Trace}
    (htouched : trace'.touched = trace.touched)
    (hserved : trace'.served = trace.served)
    (hmessages : trace'.messages = trace.messages)
    (hrefused : trace'.refused = trace.refused) :
    Trace.Adds none trace trace' where
  touched := htouched
  served := Or.inl hserved
  messages := Or.inl hmessages
  refused := hrefused

theorem Trace.Adds.touch (trace : Trace) (lane : ReplyLane) :
    Trace.Adds (some lane) trace (trace.touch lane) where
  touched := rfl
  served := Or.inl rfl
  messages := Or.inl rfl
  refused := rfl

theorem Trace.Adds.serve (trace : Trace) (lane : ReplyLane) :
    Trace.Adds (some lane) trace (trace.serve lane) where
  touched := rfl
  served := Or.inr ⟨lane, rfl, rfl⟩
  messages := Or.inl rfl
  refused := rfl

theorem traced_adds (op : Op V α) (a : α) (trace : Trace) :
    Trace.Adds op.asks trace (traced op a trace) := by
  cases op with
  | mail op =>
      cases op with
      | pollRecv turn =>
          cases a with
          | envelope e =>
              exact ⟨rfl, Or.inr ⟨.mailbox, rfl, rfl⟩, Or.inr ⟨rfl, rfl⟩, rfl⟩
          | closed => exact Trace.Adds.touch trace .mailbox
          | pending => exact Trace.Adds.touch trace .mailbox
      | _ => exact Trace.Adds.same rfl rfl rfl rfl
  | sched op =>
      cases op with
      | popReady => exact Trace.Adds.touch trace .reply
      | takeReady key =>
          cases a with
          | true => exact Trace.Adds.serve trace .reply
          | false => exact Trace.Adds.touch trace .reply
      | readyIsEmpty turn => cases a <;> exact Trace.Adds.same rfl rfl rfl rfl
      | _ => exact Trace.Adds.same rfl rfl rfl rfl
  | kin op =>
      cases op with
      | pollExit =>
          cases a with
          | some event => exact Trace.Adds.serve trace .childExit
          | none => exact Trace.Adds.touch trace .childExit
      | _ => exact Trace.Adds.same rfl rfl rfl rfl
  | _ => exact Trace.Adds.same rfl rfl rfl rfl

theorem traced_touched (op : Op V α) (a : α) (trace : Trace) :
    (traced op a trace).touched =
      match op.asks with
      | some lane => lane :: trace.touched
      | none => trace.touched := by
  rw [(traced_adds op a trace).touched]
  cases op.asks with
  | none => rfl
  | some lane => rfl

theorem traced_refused (op : Op V α) (a : α) (trace : Trace) :
    (traced op a trace).refused = trace.refused :=
  (traced_adds op a trace).refused

theorem mem_touched_of_served {op : Op V α} {a : α} {trace : Trace}
    (hserved : forall other, other ∈ trace.served -> other ∈ trace.touched)
    (h : lane ∈ (traced op a trace).served) :
    lane ∈ (traced op a trace).touched := by
  have hadds := traced_adds op a trace
  rw [hadds.touched]
  rcases hadds.served with hsame | ⟨other, hasked, hmore⟩
  · rw [hsame] at h
    exact List.mem_append_right _ (hserved lane h)
  · rw [hmore] at h
    rw [hasked]
    cases List.mem_cons.mp h with
    | inl heq => exact heq ▸ List.mem_cons_self ..
    | inr hold => exact List.mem_cons_of_mem _ (hserved lane hold)

theorem mem_traced_served {op : Op V α} {a : α} {trace : Trace}
    (h : lane ∈ trace.served) : lane ∈ (traced op a trace).served := by
  rcases (traced_adds op a trace).served with hsame | ⟨other, _, hmore⟩
  · rw [hsame]
    exact h
  · rw [hmore]
    exact List.mem_cons_of_mem _ h

theorem traced_messages (op : Op V α) (a : α) (trace : Trace) :
    (traced op a trace).messages <= trace.messages + 1 ∧
      (op.asks ≠ some .mailbox ->
        (traced op a trace).messages = trace.messages) := by
  rcases (traced_adds op a trace).messages with hsame | ⟨hasked, hmore⟩
  · exact ⟨hsame ▸ Nat.le_succ _, fun _ => hsame⟩
  · exact ⟨Nat.le_of_eq hmore, fun hother => absurd hasked hother⟩

theorem traced_other {op : Op V α} (hsteers : op.steers = false) (a : α)
    (trace : Trace) :
    traced op a trace = trace ∨
      traced op a trace = { trace with swept := false } := by
  cases op with
  | mail op =>
      cases op with
      | pollRecv turn => cases hsteers
      | _ => exact Or.inl rfl
  | sched op =>
      cases op with
      | takeReady key => cases hsteers
      | popReady => cases hsteers
      | readyIsEmpty turn => cases hsteers
      | place key future => exact Or.inr rfl
      | _ => exact Or.inl rfl
  | kin op =>
      cases op with
      | pollExit => cases hsteers
      | _ => exact Or.inl rfl
  | wakeTask => cases hsteers
  | _ => exact Or.inl rfl

/-!
## Enabled lanes
-/

def Enabled (A : ActorConfig) (turn : TurnContext) (w : World V) :
    ReplyLane -> Prop
  | .mailbox =>
      turn.receiveMessages = true ∧ w.mail.queue ≠ [] ∧
        w.sched.lease = none ∧ hasCapacity A w.sched.items.length = true
  | .reply =>
      exists key scheduled, key ∈ w.sched.ready ∧
        (w.sched.wakes key).ready = true ∧
        w.sched.items.get? key = some scheduled
  | .childExit => w.kin.events ≠ []

structure Awakes (sched sched' : Sched) : Prop where
  cursor : sched'.cursor = sched.cursor
  queued : forall key, key ∈ sched.ready -> key ∈ sched'.ready
  ready : forall key, (sched.wakes key).ready = true ->
    (sched'.wakes key).ready = true

theorem Sched.setWake_ready {sched : Sched} {key : Key} {wake : ReplyWake}
    (h : (sched.wakes key).ready = true -> wake.ready = true) (key' : Key)
    (hready : (sched.wakes key').ready = true) :
    ((sched.setWake key wake).wakes key').ready = true := by
  show (Function.update sched.wakes key wake key').ready = true
  by_cases heq : key' = key
  · subst heq
    rw [Function.update_self]
    exact h hready
  · rw [Function.update_of_ne heq]
    exact hready

theorem EnvAct.awakes {e : EnvAct} (h : e.exec A w = some w') :
    Awakes w.sched w'.sched := by
  cases e with
  | notifySwap key =>
      rw [EnvAct.exec] at h
      split at h
      · cases h
        show Awakes w.sched (w.sched.notifySwap key)
        unfold Sched.notifySwap
        split
        · exact ⟨rfl, fun _ => id, fun _ => id⟩
        · exact ⟨rfl, fun _ => id, Sched.setWake_ready (fun _ => rfl)⟩
      · cases h
  | notifyPush index =>
      rcases Option.map_eq_some_iff.mp h with ⟨sched, hpush, hw'⟩
      subst hw'
      unfold Sched.notifyPush at hpush
      split at hpush
      · cases hpush
        exact ⟨rfl, fun _ => List.mem_append_left _, fun _ => id⟩
      · cases hpush
  | notifyWake index =>
      rcases Option.map_eq_some_iff.mp h with ⟨r, hwake, hw'⟩
      subst hw'
      unfold Sched.notifyWake at hwake
      split at hwake
      · cases hwake
        exact ⟨rfl, fun _ => id, Sched.setWake_ready (fun hready => hready)⟩
      · cases hwake
  | _ =>
      have hsched : w'.sched = w.sched := by
        grind [EnvAct.exec, World.transact, World.wakeIf,
          Option.map_eq_some_iff]
      rw [hsched]
      exact ⟨rfl, fun _ => id, fun _ => id⟩

theorem EnvAct.events_exec {e : EnvAct} (h : e.exec A w = some w') :
    exists events, w'.kin.events = w.kin.events ++ events := by
  cases e with
  | childPublish key =>
      rw [EnvAct.exec] at h
      split at h
      · rcases Option.map_eq_some_iff.mp h with ⟨kin, hpublish, hw'⟩
        subst hw'
        unfold Kin.publish at hpublish
        split at hpublish
        · cases hpublish
          exact ⟨_, rfl⟩
        · cases hpublish
      · cases h
  | child key act =>
      rw [EnvAct.exec] at h
      split at h
      · cases h
        refine ⟨[], ?_⟩
        rw [List.append_nil]
        show (w.kin.advance key _).1.events = _
        unfold Kin.advance
        split
        · rfl
        · split <;> rfl
      · cases h
  | _ =>
      have hkin : w'.kin = w.kin := by
        grind [EnvAct.exec, World.transact, World.wakeIf,
          Option.map_eq_some_iff]
      exact ⟨[], by rw [hkin, List.append_nil]⟩

theorem EnvAct.enabled {e : EnvAct} (h : e.exec A w = some w')
    (henabled : Enabled A turn w lane) : Enabled A turn w' lane := by
  have hitems := EnvAct.items_exec h
  cases lane with
  | mailbox =>
      rcases henabled with ⟨hreceive, hqueue, hlease, hcapacity⟩
      refine ⟨hreceive, ?_, ?_, ?_⟩
      · rcases EnvAct.mail_exec h with
          ⟨_, _, _, _, _, _, _, hmail, _, ⟨hsame, _⟩ | ⟨_, _, happend, _⟩⟩
        · rw [hmail]
          show _ ≠ []
          rw [hsame]
          exact hqueue
        · rw [hmail]
          show _ ≠ []
          rw [happend]
          simp
      · rw [EnvAct.lease_exec h]
        exact hlease
      · rw [hitems]
        exact hcapacity
  | reply =>
      rcases henabled with ⟨key, scheduled, hqueued, hready, hfound⟩
      have hawakes := EnvAct.awakes h
      refine ⟨key, scheduled, hawakes.queued key hqueued,
        hawakes.ready key hready, ?_⟩
      rw [hitems]
      exact hfound
  | childExit =>
      rcases EnvAct.events_exec h with ⟨events, happend⟩
      show w'.kin.events ≠ []
      rw [happend]
      intro hempty
      exact henabled (List.append_eq_nil_iff.mp hempty).left

end Loac

import Loac.Macros.Grammar
import Loac.World

/-!
# Expansion of the actor attribute

What the settings of an attribute select: profiles for the mailbox, the active
handlers and the children.  A profile that is dynamic leaves its limit to the
spawn of the actor.  The limits become what the runtime is configured with, and
none of them is zero.
-/

namespace Loac
namespace Macros

structure ItemImpl where
  /-- The path of its trait, unless it is an inherent one. -/
  traitPath : Option (List Ident)

def validateActorImpl (implementation : ItemImpl) : Except SynError Unit :=
  match implementation.traitPath with
  | none => .error ⟨.implementation none, "expected `impl Actor for Type`"⟩
  | some path =>
      if path.getLast? = some "Actor" then
        .ok ()
      else
        .error ⟨.implementation (some path), "expected `impl Actor for Type`"⟩

/-- How the expanded package knows the runtime crate. -/
inductive FoundCrate where
  | itself
  | name (name : Ident)

/-- The manifest of the package, which another crate looks up, may lack it. -/
def actorCratePath (crateName : Except String FoundCrate) :
    Except SynError Ident :=
  match crateName with
  | .ok .itself => .ok "loac"
  | .ok (.name name) => .ok name
  | .error error =>
      .error ⟨.callSite, s!"could not resolve the `loac` crate: {error}"⟩

/-!
## Profiles
-/

inductive Constant where
  | written (value : Expr)
  | library (value : Nat)

/-- What the expansions of the three quantities have in common. -/
inductive Profile where
  | absent
  | fixed (limit : Constant)
  | dynamic (default : Option Expr)
  | unbounded

def LimitSpec.expand : LimitSpec -> Profile
  | .unbounded => .unbounded
  | .fixed limit => .fixed (.written limit)
  | .dynamic => .dynamic none
  | .dynamicWithDefault limit => .dynamic (some limit)

def defaultMailboxCapacity : Nat := 32

def defaultMaxInFlight : Nat := 32

def defaultMaxChildren : Nat := 32

def defaultMailboxDispatchBudget : Nat := 16

def selectProfile (capability : Option Ident)
    (quantity : Option (Ident × LimitSpec)) (standard : Nat) : Profile :=
  match capability, quantity with
  | some _, some (_, limit) => limit.expand
  | some _, none => .fixed (.library standard)
  | none, _ => .absent

def ActorArgs.expandMailbox (args : ActorArgs) : Profile :=
  selectProfile args.mailbox args.mailboxCapacity defaultMailboxCapacity

/-- The limit is looked at before the capability. -/
def ActorArgs.expandMaxInFlight (args : ActorArgs) : Profile :=
  match args.maxInFlight with
  | some (_, maxInFlight) => maxInFlight.expand
  | none =>
      if args.mailbox.isSome then
        .fixed (.library defaultMaxInFlight)
      else
        .absent

def ActorArgs.expandSupervision (args : ActorArgs) : Profile :=
  selectProfile args.children args.maxChildren defaultMaxChildren

def requireCapability {α : Type} (capability : Option Ident)
    (quantity : Option (Ident × α)) (message : String) :
    Except SynError Unit :=
  match capability, quantity with
  | none, some (name, _) => .error ⟨.name name, message⟩
  | _, _ => .ok ()

structure ActorExpansion where
  actor : Ident
  mailbox : Profile
  maxInFlight : Profile
  supervision : Profile
  mailboxDispatchBudget : Option Expr

def expandActor (crateName : Except String FoundCrate)
    (implementation : ItemImpl) (args : ActorArgs) :
    Except SynError ActorExpansion := do
  validateActorImpl implementation
  let actor <- actorCratePath crateName
  requireCapability args.mailbox args.mailboxCapacity
    "`mailbox_capacity` requires `mailbox`"
  requireCapability args.mailbox args.maxInFlight
    "`max_in_flight` requires `mailbox`"
  requireCapability args.mailbox args.mailboxDispatchBudget
    "`mailbox_dispatch_budget` requires `mailbox`"
  requireCapability args.children args.maxChildren
    "`max_children` requires `children`"
  return {
    actor
    mailbox := args.expandMailbox
    maxInFlight := args.expandMaxInFlight
    supervision := args.expandSupervision
    mailboxDispatchBudget := args.mailboxDispatchBudget.map Prod.snd
  }

/-!
## Configurations
-/

abbrev NonZero := { n : Nat // 0 < n }

abbrev Compiler := Expr -> Except String Nat

def Constant.eval (compiler : Compiler) : Constant -> Except String Nat
  | .written value => compiler value
  | .library value => .ok value

def expandNonzeroConst (compiler : Compiler) (value : Constant)
    (message : String) : Except String NonZero := do
  let n <- value.eval compiler
  if h : 0 < n then
    return ⟨n, h⟩
  else
    .error message

def Profile.Options : Profile -> Type
  | .dynamic _ => Option NonZero
  | _ => Unit

structure ActorOptions (expansion : ActorExpansion) where
  mailbox : expansion.mailbox.Options
  maxInFlight : expansion.maxInFlight.Options
  children : expansion.supervision.Options

def Profile.resolve (compiler : Compiler) (standard : NonZero)
    (message : String) :
    (profile : Profile) -> profile.Options ->
      Except String (Option (Option NonZero))
  | .absent, _ => .ok none
  | .fixed limit, _ => do
      let n <- expandNonzeroConst compiler limit message
      return some (some n)
  | .dynamic none, choice => .ok (some (some (choice.getD standard)))
  | .dynamic (some default), choice => do
      -- The default is validated although the spawn may override it.
      let n <- expandNonzeroConst compiler (.written default) message
      return some (some (choice.getD n))
  | .unbounded, _ => .ok (some none)

def expandBudget (compiler : Compiler) :
    Option Expr -> Except String NonZero
  | some budget =>
      expandNonzeroConst compiler (.written budget)
        "mailbox dispatch budget must be greater than zero"
  | none => .ok ⟨defaultMailboxDispatchBudget, by decide⟩

def transportOf : Option NonZero -> Transport
  | some capacity => .bounded capacity.val
  | none => .unbounded

def openActor (compiler : Compiler) (expansion : ActorExpansion)
    (options : ActorOptions expansion) (parent : Bool) :
    Except String ActorConfig := do
  let budget <- expandBudget compiler expansion.mailboxDispatchBudget
  let mailbox <- expansion.mailbox.resolve compiler
    ⟨defaultMailboxCapacity, by decide⟩
    "mailbox capacity must be greater than zero" options.mailbox
  let limit <- expansion.maxInFlight.resolve compiler
    ⟨defaultMaxInFlight, by decide⟩
    "handler limit must be greater than zero" options.maxInFlight
  let children <- expansion.supervision.resolve compiler
    ⟨defaultMaxChildren, by decide⟩
    "child limit must be greater than zero" options.children
  return {
    mailbox := mailbox.map transportOf
    limit := limit.join.map Subtype.val
    limitPositive := by
      intro n hn
      rcases Option.map_eq_some_iff.mp hn with ⟨m, _, hm⟩
      exact hm ▸ m.property
    mailboxDispatchBudget := budget.val
    budgetPositive := budget.property
    children := children.map (Option.map Subtype.val)
    parent
  }

/-!
## What the settings mean for the arguments
-/

variable {syn : Syn} {args : ActorArgs} {settings : List Setting}

/-- The arguments have the setting, whatever the spelling of its name. -/
def Setting.Recorded (args : ActorArgs) : Setting -> Prop
  | .mailbox => args.mailbox.isSome
  | .mailboxCapacity limit => args.mailboxCapacity.map Prod.snd = some limit
  | .mailboxDispatchBudget budget =>
      args.mailboxDispatchBudget.map Prod.snd = some budget
  | .maxInFlight limit => args.maxInFlight.map Prod.snd = some limit
  | .children => args.children.isSome
  | .maxChildren limit => args.maxChildren.map Prod.snd = some limit

theorem Setting.recorded_record (setting other : Setting) (args : ActorArgs) :
    other.Recorded (setting.record args) <->
      setting = other ∨ other.name ≠ setting.name ∧ other.Recorded args := by
  cases setting <;> cases other <;>
    simp [Setting.Recorded, Setting.record, Setting.name]

theorem Setting.given_of_name {setting other : Setting} (args : ActorArgs)
    (hname : other.name = setting.name) :
    other.given args = setting.given args := by
  cases setting <;> cases other <;>
    first
    | rfl
    | simp [Setting.name] at hname

theorem isSome_of_snd {α : Type} {quantity : Option (Ident × α)} {value : α}
    (h : quantity.map Prod.snd = some value) : quantity.isSome = true := by
  rw [← Option.isSome_map, h]
  rfl

theorem Setting.Recorded.given {setting : Setting}
    (h : setting.Recorded args) : setting.given args = true := by
  cases setting with
  | mailbox => exact h
  | children => exact h
  | mailboxCapacity limit => exact isSome_of_snd h
  | mailboxDispatchBudget budget => exact isSome_of_snd h
  | maxInFlight limit => exact isSome_of_snd h
  | maxChildren limit => exact isSome_of_snd h

theorem recorded_foldl (other : Setting) :
    forall args : ActorArgs, Fresh args settings ->
      (other.Recorded (settings.foldl Setting.record args) <->
        other ∈ settings ∨ other.Recorded args) := by
  induction settings with
  | nil => simp
  | cons setting settings ih =>
      intro args hfresh
      rcases fresh_cons.mp hfresh with ⟨hgiven, hfresh'⟩
      rw [List.foldl_cons, ih _ hfresh', Setting.recorded_record,
        List.mem_cons]
      constructor
      · intro h
        rcases h with hmem | heq | h
        · exact Or.inl (Or.inr hmem)
        · exact Or.inl (Or.inl heq.symm)
        · exact Or.inr h.right
      · intro h
        rcases h with (heq | hmem) | hrecorded
        · exact Or.inr (Or.inl heq.symm)
        · exact Or.inl hmem
        · refine Or.inr (Or.inr ⟨?_, hrecorded⟩)
          intro hname
          rw [← Setting.given_of_name args hname, hrecorded.given] at hgiven
          cases hgiven

theorem parse_recorded {input : List Token}
    (hwritten : Written syn input settings)
    (hparse : ActorArgs.parse syn input = .ok args) (setting : Setting) :
    setting.Recorded args <-> setting ∈ settings := by
  rcases parse_ok.mp hparse with ⟨settings', hwritten', hnodup, hargs⟩
  have hsame := hwritten'.unique hwritten
  subst hsame
  have hfresh : Fresh {} settings' :=
    ⟨hnodup, fun setting _ => setting.given_empty⟩
  rw [hargs, recorded_foldl setting {} hfresh]
  have hempty : ¬ setting.Recorded {} := by
    cases setting <;> simp [Setting.Recorded]
  simp [hempty]

/-!
## Profiles of the settings
-/

section

variable {capability : Option Ident} {quantity : Option (Ident × LimitSpec)}
  {standard : Nat}

theorem selectProfile_absent :
    selectProfile capability quantity standard = .absent <->
      capability.isSome = false := by
  cases capability with
  | none => simp [selectProfile]
  | some name =>
      cases quantity with
      | none => simp [selectProfile]
      | some given => cases hlimit : given.snd <;>
          simp [selectProfile, LimitSpec.expand, hlimit]

theorem selectProfile_unbounded :
    selectProfile capability quantity standard = .unbounded <->
      capability.isSome = true ∧ quantity.map Prod.snd = some .unbounded := by
  cases capability with
  | none => simp [selectProfile]
  | some name =>
      cases quantity with
      | none => simp [selectProfile]
      | some given => cases hlimit : given.snd <;>
          simp [selectProfile, LimitSpec.expand, hlimit]

theorem selectProfile_fixed {limit : Expr} (hcapable : capability.isSome = true)
    (hfixed : quantity.map Prod.snd = some (.fixed limit)) :
    selectProfile capability quantity standard = .fixed (.written limit) := by
  cases capability with
  | none => cases hcapable
  | some name =>
      cases quantity with
      | none => cases hfixed
      | some given =>
          rw [Option.map_some, Option.some.injEq] at hfixed
          simp [selectProfile, LimitSpec.expand, hfixed]

end

theorem requireCapability_ok {α : Type} {capability : Option Ident}
    {quantity : Option (Ident × α)} {message : String} :
    requireCapability capability quantity message = .ok () <->
      (quantity.isSome = true -> capability.isSome = true) := by
  cases capability with
  | none =>
      cases quantity with
      | none => simp [requireCapability]
      | some given => simp [requireCapability]
  | some name => simp [requireCapability]

theorem expandMaxInFlight_eq
    (h : args.maxInFlight.isSome = true -> args.mailbox.isSome = true) :
    args.expandMaxInFlight =
      selectProfile args.mailbox args.maxInFlight defaultMaxInFlight := by
  unfold ActorArgs.expandMaxInFlight selectProfile
  cases hquantity : args.maxInFlight with
  | none => cases hcapability : args.mailbox <;> rfl
  | some given =>
      cases hcapability : args.mailbox with
      | none =>
          rw [hquantity, hcapability] at h
          cases h rfl
      | some name => rfl

section

variable {compiler : Compiler} {standard : NonZero} {message : String}
  {profile : Profile} {choice : profile.Options}
  {resolved : Option (Option NonZero)}

theorem resolve_cases
    (h : profile.resolve compiler standard message choice = .ok resolved) :
    (resolved = none <-> profile = .absent) ∧
      (resolved = some none <-> profile = .unbounded) := by
  cases profile with
  | absent =>
      cases h
      simp
  | unbounded =>
      cases h
      simp
  | fixed limit =>
      rcases bind_ok.mp h with ⟨n, _, hresolved⟩
      cases hresolved
      simp
  | dynamic default =>
      cases default with
      | none =>
          cases h
          simp
      | some default =>
          rcases bind_ok.mp h with ⟨n, _, hresolved⟩
          cases hresolved
          simp

theorem resolve_fixed {limit : Expr} {n : Nat}
    (h : profile.resolve compiler standard message choice = .ok resolved)
    (hfixed : profile = .fixed (.written limit))
    (hvalue : compiler limit = .ok n) :
    resolved.map (Option.map Subtype.val) = some (some n) := by
  subst hfixed
  rcases bind_ok.mp h with ⟨m, hm, hresolved⟩
  rcases bind_ok.mp hm with ⟨n', hn', hm⟩
  have heq : compiler limit = .ok n' := hn'
  rw [hvalue, Except.ok.injEq] at heq
  subst heq
  split at hm
  · cases hm
    cases hresolved
    rfl
  · cases hm

end

end Macros
end Loac

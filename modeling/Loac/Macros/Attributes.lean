import Loac.Capacity.Backpressure
import Loac.Macros.Expansion

/-!
# Attributes

What an attribute says is what the runtime gets.  The parser reads the settings
that are written, in any order, and names the option that is given twice.  The
expansion accepts them if every quantity has its capability.  The actor is then
opened with limits that are positive, and without a limit only where the
attribute says so.  Where it has limits they hold in every run.
-/

namespace Loac
namespace Macros

variable {syn : Syn} {args : ActorArgs} {input rest : List Token}
  {settings : List Setting}

/-!
## Reading
-/

def duplicateOption (name : Ident) : SynError :=
  ⟨.name name, s!"duplicate `{name}` option"⟩

theorem rejectDuplicate_error {α : Type} {given : Option α} {name : Ident}
    (h : given.isSome = true) :
    rejectDuplicate given name = .error (duplicateOption name) := by
  cases given with
  | none => cases h
  | some value => rfl

theorem bind_to {ε α β : Type} {x : Except ε α} {f : α -> Except ε β} {a : α}
    (hx : x = .ok a) : (x >>= f) = f a := by
  rw [hx]
  rfl

theorem bind_of_error {ε α β : Type} {x : Except ε α} {f : α -> Except ε β}
    {e : ε} (hx : x = .error e) : (x >>= f) = .error e := by
  rw [hx]
  rfl

theorem parseOption_duplicate {setting : Setting}
    (htakes : setting.Takes syn input rest)
    (hgiven : setting.given args = true) :
    args.parseOption syn input = .error (duplicateOption setting.name) := by
  rcases htakes with ⟨tail, hinput, _⟩
  rw [hinput]
  apply Eq.trans (bind_to (a := (setting.name, tail)) rfl)
  cases setting with
  | mailbox => exact bind_of_error (rejectDuplicate_error hgiven)
  | mailboxCapacity limit => exact bind_of_error (rejectDuplicate_error hgiven)
  | mailboxDispatchBudget budget =>
      exact bind_of_error (rejectDuplicate_error hgiven)
  | maxInFlight limit => exact bind_of_error (rejectDuplicate_error hgiven)
  | children => exact bind_of_error (rejectDuplicate_error hgiven)
  | maxChildren limit => exact bind_of_error (rejectDuplicate_error hgiven)

theorem parseFrom_duplicate (hwritten : Written syn input settings) :
    forall args, ¬ Fresh args settings ->
      exists before setting after, settings = before ++ setting :: after ∧
        Fresh args before ∧
        (setting.given args = true ∨
          setting.name ∈ before.map Setting.name) ∧
        args.parseFrom syn input = .error (duplicateOption setting.name) := by
  induction hwritten with
  | nil =>
      intro args hstale
      exact absurd ⟨List.nodup_nil, by simp⟩ hstale
  | @cons input rest tail setting settings htakes hcomma _ ih =>
      intro args hstale
      cases hgiven : setting.given args with
      | true =>
          refine ⟨[], setting, settings, rfl, ⟨List.nodup_nil, by simp⟩,
            Or.inl hgiven, ?_⟩
          have hround := parseOption_duplicate htakes hgiven
          rw [ActorArgs.parseFrom, if_neg htakes.nonempty]
          split
          · rename_i e hround'
            rw [hround, Except.error.injEq] at hround'
            rw [hround']
          · rename_i hround'
            rw [hround] at hround'
            cases hround'
      | false =>
          rw [fresh_cons, not_and] at hstale
          rcases ih _ (hstale hgiven) with
            ⟨before, other, after, hsettings, hfresh, hother, herror⟩
          refine ⟨setting :: before, other, after, by rw [hsettings]; rfl,
            fresh_cons.mpr ⟨hgiven, hfresh⟩, ?_, ?_⟩
          · rw [List.map_cons, List.mem_cons]
            cases hother with
            | inr hmem => exact Or.inr (Or.inr hmem)
            | inl hgiven' =>
                by_cases hname : other.name = setting.name
                · exact Or.inr (Or.inl hname)
                · left
                  cases hbefore : other.given args with
                  | true => rfl
                  | false =>
                      rw [(setting.given_record other args).mpr
                        ⟨hname, hbefore⟩] at hgiven'
                      cases hgiven'
          · rw [parseFrom_round htakes hgiven hcomma]
            exact herror

/--
The parser accepts an input exactly if it is written with settings that are not
repeated, and has these settings then.  The first repetition is an error that
names the option.  The order of the settings makes no difference.
-/
theorem attribute_read (syn : Syn) (input : List Token) :
    (forall args, ActorArgs.parse syn input = .ok args ->
      exists settings, Written syn input settings ∧
        (settings.map Setting.name).Nodup ∧
          forall setting : Setting,
            setting.Recorded args <-> setting ∈ settings) ∧
    (forall settings, Written syn input settings ->
      ((settings.map Setting.name).Nodup ->
        exists args, ActorArgs.parse syn input = .ok args ∧
          forall input' settings', Written syn input' settings' ->
            settings.Perm settings' ->
              ActorArgs.parse syn input' = .ok args) ∧
      (¬ (settings.map Setting.name).Nodup ->
        exists before setting after, settings = before ++ setting :: after ∧
          (before.map Setting.name).Nodup ∧
          setting.name ∈ before.map Setting.name ∧
          ActorArgs.parse syn input =
            .error (duplicateOption setting.name))) := by
  constructor
  · intro args hparse
    rcases parse_ok.mp hparse with ⟨settings, hwritten, hnodup, _⟩
    exact ⟨settings, hwritten, hnodup, parse_recorded hwritten hparse⟩
  · intro settings hwritten
    constructor
    · intro hnodup
      have hparse := parse_ok.mpr ⟨settings, hwritten, hnodup, rfl⟩
      refine ⟨_, hparse, ?_⟩
      intro input' settings' hwritten' hperm
      exact parse_perm hparse hwritten hwritten' hperm
    · intro hrepeated
      have hstale : ¬ Fresh {} settings := fun hfresh => hrepeated hfresh.left
      rcases parseFrom_duplicate hwritten {} hstale with
        ⟨before, setting, after, hsettings, hfresh, hrepeats, herror⟩
      rw [setting.given_empty] at hrepeats
      exact ⟨before, setting, after, hsettings, hfresh.left,
        hrepeats.resolve_left (by simp), herror⟩

/-!
## Opening
-/

def ItemImpl.IsActor (implementation : ItemImpl) : Prop :=
  implementation.traitPath.bind List.getLast? = some "Actor"

theorem validateActorImpl_ok {implementation : ItemImpl} :
    validateActorImpl implementation = .ok () <-> implementation.IsActor := by
  unfold validateActorImpl ItemImpl.IsActor
  cases implementation.traitPath with
  | none => simp
  | some path =>
      by_cases hlast : path.getLast? = some "Actor"
      · simp [hlast]
      · simp [hlast]

def Setting.capability : Setting -> Option Setting
  | .mailboxCapacity _ => some .mailbox
  | .mailboxDispatchBudget _ => some .mailbox
  | .maxInFlight _ => some .mailbox
  | .maxChildren _ => some .children
  | .mailbox => none
  | .children => none

def Supported (settings : List Setting) : Prop :=
  forall setting capability, setting ∈ settings ->
    setting.capability = some capability -> capability ∈ settings

structure Configures (compiler : Compiler) (settings : List Setting)
    (config : ActorConfig) : Prop where
  mailbox : config.mailbox.isSome = true <-> .mailbox ∈ settings
  mailboxUnbounded : config.mailbox = some .unbounded <->
    .mailboxCapacity .unbounded ∈ settings
  mailboxBounded : forall transport, config.mailbox = some transport ->
    transport = .unbounded ∨ exists capacity, 0 < capacity ∧
      transport = .bounded capacity
  mailboxFixed : forall limit n, .mailboxCapacity (.fixed limit) ∈ settings ->
    compiler limit = .ok n -> config.mailbox = some (.bounded n)
  handlersUnbounded : .mailbox ∈ settings ->
    (config.limit = none <-> .maxInFlight .unbounded ∈ settings)
  handlersFixed : forall limit n, .maxInFlight (.fixed limit) ∈ settings ->
    compiler limit = .ok n -> config.limit = some n
  children : config.children.isSome = true <-> .children ∈ settings
  childrenUnbounded : config.children = some none <->
    .maxChildren .unbounded ∈ settings
  childrenPositive : forall n, config.children = some (some n) -> 0 < n
  childrenFixed : forall limit n, .maxChildren (.fixed limit) ∈ settings ->
    compiler limit = .ok n -> config.children = some (some n)

section

variable {implementation : ItemImpl} {expansion : ActorExpansion}
  {crateName : Except String FoundCrate}

def Resolved (crateName : Except String FoundCrate) : Prop :=
  exists found, crateName = .ok found

theorem resolved_iff :
    Resolved crateName <-> exists actor, actorCratePath crateName = .ok actor := by
  cases crateName with
  | error error =>
      constructor
      · intro h
        rcases h with ⟨found, hfound⟩
        cases hfound
      · intro h
        rcases h with ⟨actor, hactor⟩
        cases hactor
  | ok found => cases found <;> exact ⟨fun _ => ⟨_, rfl⟩, fun _ => ⟨_, rfl⟩⟩

/-- The arguments give every quantity with its capability. -/
structure ActorArgs.Supported (args : ActorArgs) : Prop where
  capacity : args.mailboxCapacity.isSome = true -> args.mailbox.isSome = true
  handlers : args.maxInFlight.isSome = true -> args.mailbox.isSome = true
  budget : args.mailboxDispatchBudget.isSome = true ->
    args.mailbox.isSome = true
  children : args.maxChildren.isSome = true -> args.children.isSome = true

theorem expandActor_ok :
    expandActor crateName implementation args = .ok expansion <->
      implementation.IsActor ∧ args.Supported ∧
        exists actor, actorCratePath crateName = .ok actor ∧ expansion = {
          actor
          mailbox := args.expandMailbox
          maxInFlight := args.expandMaxInFlight
          supervision := args.expandSupervision
          mailboxDispatchBudget := args.mailboxDispatchBudget.map Prod.snd
        } := by
  constructor
  · intro h
    rcases bind_ok.mp h with ⟨_, himpl, h⟩
    rcases bind_ok.mp h with ⟨actor, hactor, h⟩
    rcases bind_ok.mp h with ⟨_, hcapacity, h⟩
    rcases bind_ok.mp h with ⟨_, hhandlers, h⟩
    rcases bind_ok.mp h with ⟨_, hbudget, h⟩
    rcases bind_ok.mp h with ⟨_, hchildren, h⟩
    cases h
    exact ⟨validateActorImpl_ok.mp himpl,
      ⟨requireCapability_ok.mp hcapacity, requireCapability_ok.mp hhandlers,
        requireCapability_ok.mp hbudget, requireCapability_ok.mp hchildren⟩,
      actor, hactor, rfl⟩
  · intro h
    rcases h with ⟨himpl, hsupported, actor, hactor, hexpansion⟩
    rw [hexpansion]
    apply bind_of_ok (validateActorImpl_ok.mpr himpl)
    apply bind_of_ok hactor
    apply bind_of_ok (requireCapability_ok.mpr hsupported.capacity)
    apply bind_of_ok (requireCapability_ok.mpr hsupported.handlers)
    apply bind_of_ok (requireCapability_ok.mpr hsupported.budget)
    exact bind_of_ok (requireCapability_ok.mpr hsupported.children) rfl

theorem exists_snd {α : Type} {quantity : Option (Ident × α)}
    (h : quantity.isSome = true) :
    exists value, quantity.map Prod.snd = some value := by
  cases quantity with
  | none => cases h
  | some given => exact ⟨given.snd, rfl⟩

theorem supported_iff
    (hrecorded : forall setting : Setting,
      setting.Recorded args <-> setting ∈ settings) :
    args.Supported <-> Supported settings := by
  constructor
  · intro h setting capability hmem hcapability
    have hgiven := ((hrecorded setting).mpr hmem).given
    cases setting with
    | mailbox => cases hcapability
    | children => cases hcapability
    | mailboxCapacity limit =>
        cases hcapability
        exact (hrecorded .mailbox).mp (h.capacity hgiven)
    | maxInFlight limit =>
        cases hcapability
        exact (hrecorded .mailbox).mp (h.handlers hgiven)
    | mailboxDispatchBudget budget =>
        cases hcapability
        exact (hrecorded .mailbox).mp (h.budget hgiven)
    | maxChildren limit =>
        cases hcapability
        exact (hrecorded .children).mp (h.children hgiven)
  · intro h
    constructor
    · intro hgiven
      rcases exists_snd hgiven with ⟨limit, hlimit⟩
      have hmem := (hrecorded (.mailboxCapacity limit)).mp hlimit
      exact (hrecorded .mailbox).mpr (h _ _ hmem rfl)
    · intro hgiven
      rcases exists_snd hgiven with ⟨limit, hlimit⟩
      have hmem := (hrecorded (.maxInFlight limit)).mp hlimit
      exact (hrecorded .mailbox).mpr (h _ _ hmem rfl)
    · intro hgiven
      rcases exists_snd hgiven with ⟨budget, hbudget⟩
      have hmem := (hrecorded (.mailboxDispatchBudget budget)).mp hbudget
      exact (hrecorded .mailbox).mpr (h _ _ hmem rfl)
    · intro hgiven
      rcases exists_snd hgiven with ⟨limit, hlimit⟩
      have hmem := (hrecorded (.maxChildren limit)).mp hlimit
      exact (hrecorded .children).mpr (h _ _ hmem rfl)

end

structure Resolves (compiler : Compiler) (capable : Prop)
    (written : LimitSpec -> Prop) (resolved : Option (Option NonZero)) :
    Prop where
  absent : resolved = none <-> ¬ capable
  unbounded : resolved = some none <-> written .unbounded
  fixed : forall limit n, written (.fixed limit) -> compiler limit = .ok n ->
    resolved.map (Option.map Subtype.val) = some (some n)

theorem selectProfile_resolves {capability : Option Ident}
    {quantity : Option (Ident × LimitSpec)} {number : Nat}
    {compiler : Compiler} {standard : NonZero} {message : String}
    {profile : Profile} {choice : profile.Options}
    {resolved : Option (Option NonZero)}
    (hprofile : profile = selectProfile capability quantity number)
    (hsupported : quantity.isSome = true -> capability.isSome = true)
    (h : profile.resolve compiler standard message choice = .ok resolved) :
    Resolves compiler (capability.isSome = true)
      (fun limit => quantity.map Prod.snd = some limit) resolved := by
  rcases resolve_cases h with ⟨habsent, hunbounded⟩
  constructor
  · rw [habsent, hprofile, selectProfile_absent]
    simp
  · rw [hunbounded, hprofile, selectProfile_unbounded]
    constructor
    · intro hboth
      exact hboth.right
    · intro hwritten
      exact ⟨hsupported (isSome_of_snd hwritten), hwritten⟩
  · intro limit n hwritten hvalue
    have hcapable := hsupported (isSome_of_snd hwritten)
    exact resolve_fixed h (hprofile.trans
      (selectProfile_fixed hcapable hwritten)) hvalue

theorem openActor_configures {expansion : ActorExpansion}
    {crateName : Except String FoundCrate} {implementation : ItemImpl}
    {compiler : Compiler} {options : ActorOptions expansion} {parent : Bool} {config : ActorConfig}
    (hrecorded : forall setting : Setting,
      setting.Recorded args <-> setting ∈ settings)
    (hexpand : expandActor crateName implementation args = .ok expansion)
    (h : openActor compiler expansion options parent = .ok config) :
    Configures compiler settings config := by
  rcases expandActor_ok.mp hexpand with ⟨_, hsupported, _, _, hexpansion⟩
  rcases bind_ok.mp h with ⟨budget, _, h⟩
  rcases bind_ok.mp h with ⟨mailbox, hmailbox, h⟩
  rcases bind_ok.mp h with ⟨limit, hlimit, h⟩
  rcases bind_ok.mp h with ⟨children, hchildren, h⟩
  have hmailboxes := selectProfile_resolves
    (congrArg ActorExpansion.mailbox hexpansion) hsupported.capacity hmailbox
  have hhandlers := selectProfile_resolves
    ((congrArg ActorExpansion.maxInFlight hexpansion).trans
      (expandMaxInFlight_eq hsupported.handlers)) hsupported.handlers hlimit
  have hkin := selectProfile_resolves
    (congrArg ActorExpansion.supervision hexpansion) hsupported.children
    hchildren
  have hcapable : args.mailbox.isSome = true <-> .mailbox ∈ settings :=
    hrecorded .mailbox
  cases h
  constructor
  · rw [← hcapable]
    change (mailbox.map transportOf).isSome = true <-> _
    have habsent := hmailboxes.absent
    cases mailbox with
    | none => simpa using habsent.mp rfl
    | some capacity => simpa [Option.isSome_iff_ne_none] using habsent
  · rw [← hrecorded (.mailboxCapacity .unbounded)]
    refine Iff.trans ?_ hmailboxes.unbounded
    change mailbox.map transportOf = some .unbounded <-> _
    cases mailbox with
    | none => simp
    | some capacity => cases capacity <;> simp [transportOf]
  · intro transport htransport
    change mailbox.map transportOf = some transport at htransport
    rcases Option.map_eq_some_iff.mp htransport with ⟨capacity, _, heq⟩
    cases capacity with
    | none => exact Or.inl heq.symm
    | some capacity => exact Or.inr ⟨capacity.val, capacity.property, heq.symm⟩
  · intro limit n hmem hvalue
    change mailbox.map transportOf = some (.bounded n)
    have hfixed := hmailboxes.fixed limit n
      ((hrecorded (.mailboxCapacity (.fixed limit))).mpr hmem) hvalue
    cases mailbox with
    | none => cases hfixed
    | some capacity =>
        cases capacity with
        | none => cases hfixed
        | some capacity =>
            cases hfixed
            rfl
  · intro hmem
    rw [← hrecorded (.maxInFlight .unbounded)]
    refine Iff.trans ?_ hhandlers.unbounded
    change limit.join.map Subtype.val = none <-> _
    have habsent := hhandlers.absent
    cases limit with
    | none => exact absurd (hcapable.mpr hmem) (habsent.mp rfl)
    | some bound => cases bound <;> simp
  · intro value n hmem hvalue
    change limit.join.map Subtype.val = some n
    have hfixed := hhandlers.fixed value n
      ((hrecorded (.maxInFlight (.fixed value))).mpr hmem) hvalue
    cases limit with
    | none => cases hfixed
    | some bound =>
        rw [Option.map_some, Option.some.injEq] at hfixed
        exact hfixed
  · rw [← hrecorded .children]
    change (children.map _).isSome = true <-> args.children.isSome = true
    have habsent := hkin.absent
    cases children with
    | none => simpa using habsent.mp rfl
    | some bound => simpa [Option.isSome_iff_ne_none] using habsent
  · rw [← hrecorded (.maxChildren .unbounded)]
    refine Iff.trans ?_ hkin.unbounded
    change children.map (Option.map Subtype.val) = some none <-> _
    cases children with
    | none => simp
    | some bound => cases bound <;> simp
  · intro n hn
    change children.map (Option.map Subtype.val) = some (some n) at hn
    rcases Option.map_eq_some_iff.mp hn with ⟨bound, _, hbound⟩
    rcases Option.map_eq_some_iff.mp hbound with ⟨m, _, hm⟩
    exact hm ▸ m.property
  · intro value n hmem hvalue
    exact hkin.fixed value n
      ((hrecorded (.maxChildren (.fixed value))).mpr hmem) hvalue

/--
The expansion accepts an attribute exactly if the runtime crate is known, and
it stands on an implementation of the trait and gives every quantity with its
capability.  An actor that is opened with it, with whatever the spawn chooses,
is configured as it says: the limits are positive, a fixed one is what is
written, and there is none exactly where `unbounded` is written.
-/
theorem attribute_opens (syn : Syn) (input : List Token)
    (settings : List Setting) (args : ActorArgs)
    (crateName : Except String FoundCrate) (implementation : ItemImpl)
    (hwritten : Written syn input settings)
    (hparse : ActorArgs.parse syn input = .ok args) :
    ((exists expansion,
        expandActor crateName implementation args = .ok expansion) <->
      Resolved crateName ∧ implementation.IsActor ∧ Supported settings) ∧
    (forall compiler expansion (options : ActorOptions expansion) parent config,
      expandActor crateName implementation args = .ok expansion ->
        openActor compiler expansion options parent = .ok config ->
          Configures compiler settings config) := by
  have hrecorded := parse_recorded hwritten hparse
  constructor
  · rw [← supported_iff hrecorded, resolved_iff]
    constructor
    · intro h
      rcases h with ⟨expansion, hexpand⟩
      rcases expandActor_ok.mp hexpand with
        ⟨himpl, hsupported, actor, hactor, _⟩
      exact ⟨⟨actor, hactor⟩, himpl, hsupported⟩
    · intro h
      rcases h with ⟨⟨actor, hactor⟩, himpl, hsupported⟩
      exact ⟨_, expandActor_ok.mpr ⟨himpl, hsupported, actor, hactor, rfl⟩⟩
  · intro compiler expansion options parent config hexpand hopen
    exact openActor_configures hrecorded hexpand hopen

def wordSyn : Syn where
  expr
    | .ident name :: rest => .ok (.path false [name], rest)
    | _ => .error ⟨.name "", "expected an expression"⟩
  front := by
    intro input e rest h
    split at h
    · rename_i name tail
      cases h
      exact ⟨[.ident name], by simp, rfl⟩
    · cases h

def unboundedMailbox : List Token :=
  [.ident "mailbox_capacity", .eq, .ident "unbounded", .comma,
    .ident "mailbox"]

def unboundedSettings : List Setting :=
  [.mailboxCapacity .unbounded, .mailbox]

theorem unboundedMailbox_written :
    Written wordSyn unboundedMailbox unboundedSettings := by
  have hcapacity : Setting.Takes wordSyn (.mailboxCapacity .unbounded)
      unboundedMailbox [.comma, .ident "mailbox"] :=
    ⟨_, rfl, _, .path false ["unbounded"], rfl, rfl, .unbounded rfl⟩
  have hmailbox : Setting.Takes wordSyn .mailbox [.ident "mailbox"] [] :=
    ⟨_, rfl, rfl, by simp⟩
  exact .cons hcapacity (Or.inr rfl)
    (.cons hmailbox (Or.inl ⟨rfl, rfl⟩) .nil)

/-- The limits that the attribute leaves open have their standard values. -/
theorem unboundedMailbox_opens :
    exists config, config.mailbox = some .unbounded ∧ config.limit = some 32 ∧
      Configures (fun _ => .error "") unboundedSettings config := by
  have hparse : ActorArgs.parse wordSyn unboundedMailbox = .ok
      (unboundedSettings.foldl Setting.record {}) :=
    parse_ok.mpr ⟨unboundedSettings, unboundedMailbox_written,
      by decide, rfl⟩
  refine ⟨_, ?_, ?_, (attribute_opens wordSyn unboundedMailbox
    unboundedSettings _ (.ok .itself) ⟨some ["loac", "Actor"]⟩
    unboundedMailbox_written hparse).right (fun _ => .error "")
      ⟨"loac", .unbounded, .fixed (.library 32), .absent, none⟩ ⟨(), (), ()⟩ false _
      rfl rfl⟩
  · rfl
  · rfl

/-!
## Running
-/

theorem Configures.bounds {compiler : Compiler} {config : ActorConfig}
    (h : Configures compiler settings config) (hmailbox : .mailbox ∈ settings)
    (hcapacity : .mailboxCapacity .unbounded ∉ settings)
    (hhandlers : .maxInFlight .unbounded ∉ settings) :
    exists capacity limit, 0 < capacity ∧ 0 < limit ∧
      config.mailbox = some (.bounded capacity) ∧
        config.limit = some limit := by
  rcases Option.isSome_iff_exists.mp (h.mailbox.mpr hmailbox) with
    ⟨transport, htransport⟩
  cases hlimit : config.limit with
  | none => exact absurd ((h.handlersUnbounded hmailbox).mp hlimit) hhandlers
  | some limit =>
      rcases h.mailboxBounded transport htransport with
        hunbounded | ⟨capacity, hpositive, hbounded⟩
      · rw [hunbounded] at htransport
        exact absurd (h.mailboxUnbounded.mp htransport) hcapacity
      · rw [hbounded] at htransport
        exact ⟨capacity, limit, hpositive, config.limitPositive limit hlimit,
          htransport, rfl⟩

/--
Let an attribute with a mailbox say `unbounded` neither of its capacity nor of
its active handlers.  However the actor is spawned, its capacity and its limit
are positive and bound its mailbox and the callers that wait in every run.
-/
theorem attribute_bounds_callers (syn : Syn) (input : List Token)
    (settings : List Setting) (args : ActorArgs)
    (crateName : Except String FoundCrate) (implementation : ItemImpl)
    (compiler : Compiler) (expansion : ActorExpansion)
    (options : ActorOptions expansion) (parent : Bool) (config : ActorConfig)
    (hwritten : Written syn input settings)
    (hparse : ActorArgs.parse syn input = .ok args)
    (hexpand : expandActor crateName implementation args = .ok expansion)
    (hopen : openActor compiler expansion options parent = .ok config)
    (hmailbox : .mailbox ∈ settings)
    (hcapacity : .mailboxCapacity .unbounded ∉ settings)
    (hhandlers : .maxInFlight .unbounded ∉ settings) :
    exists capacity limit, 0 < capacity ∧ 0 < limit ∧
      config.mailbox = some (.bounded capacity) ∧ config.limit = some limit ∧
      forall (V : Type) (c : ActorState V), Reachable config c ->
        c.state.mail.queue.length + c.state.mail.reserved <= capacity ∧
        forall site, suspendedAt c = some site ->
          c.state.mail.outstanding.length + c.state.mail.reserved <=
            capacity + limit := by
  have hconfigures := openActor_configures (parse_recorded hwritten hparse)
    hexpand hopen
  rcases hconfigures.bounds hmailbox hcapacity hhandlers with
    ⟨capacity, limit, hpositive, hpositive', htransport, hlimit⟩
  refine ⟨capacity, limit, hpositive, hpositive', htransport, hlimit, ?_⟩
  intro V c hreach
  constructor
  · exact Reachable.within htransport hreach
  · intro site hsuspended
    exact Reachable.outstanding_le htransport hlimit hreach hsuspended

/-- The configuration of an actor whose attribute says `mailbox` only. -/
def plainMailbox : ActorConfig where
  mailbox := some (.bounded 32)
  limit := some 32
  limitPositive := by
    intro n hn
    cases hn
    exact Nat.succ_pos 31
  mailboxDispatchBudget := 16
  budgetPositive := Nat.succ_pos 15
  children := none
  parent := false

theorem plainMailbox_bounded :
    exists capacity limit, 0 < capacity ∧ 0 < limit ∧
      plainMailbox.mailbox = some (.bounded capacity) ∧
      plainMailbox.limit = some limit ∧
      forall (V : Type) (c : ActorState V), Reachable plainMailbox c ->
        c.state.mail.queue.length + c.state.mail.reserved <= capacity ∧
        forall site, suspendedAt c = some site ->
          c.state.mail.outstanding.length + c.state.mail.reserved <=
            capacity + limit := by
  have htakes : Setting.Takes wordSyn .mailbox [.ident "mailbox"] [] :=
    ⟨_, rfl, rfl, by simp⟩
  have hwritten : Written wordSyn [.ident "mailbox"] [.mailbox] :=
    .cons htakes (Or.inl ⟨rfl, rfl⟩) .nil
  have hparse : ActorArgs.parse wordSyn [.ident "mailbox"] = .ok
      (Setting.mailbox.record {}) :=
    parse_ok.mpr ⟨[.mailbox], hwritten, by decide, rfl⟩
  exact attribute_bounds_callers wordSyn [.ident "mailbox"] [.mailbox] _
    (.ok (.name "actors")) ⟨some ["Actor"]⟩ (fun _ => .error "")
    ⟨"actors", .fixed (.library 32), .fixed (.library 32), .absent, none⟩ ⟨(), (), ()⟩
    false plainMailbox hwritten hparse rfl rfl (by simp) (by simp) (by simp)

end Macros
end Loac

import Loac.Macros.Arguments
import Mathlib.Data.List.Nodup

/-!
# Grammar of the actor attribute

What the parser accepts, stated without the parser: a list of settings with
commas between them and perhaps one at the end, each setting at most once, and
every literal in range.  The order in which the settings are written is of no
importance.
-/

namespace Loac
namespace Macros

variable {syn : Syn} {args args' : ActorArgs} {input rest : List Token}

inductive Setting where
  | mailbox
  | mailboxCapacity (limit : LimitSpec)
  | mailboxDispatchBudget (budget : Expr)
  | maxInFlight (limit : LimitSpec)
  | children
  | maxChildren (limit : LimitSpec)

namespace Setting

def name : Setting -> Ident
  | .mailbox => "mailbox"
  | .mailboxCapacity _ => "mailbox_capacity"
  | .mailboxDispatchBudget _ => "mailbox_dispatch_budget"
  | .maxInFlight _ => "max_in_flight"
  | .children => "children"
  | .maxChildren _ => "max_children"

def given (args : ActorArgs) : Setting -> Bool
  | .mailbox => args.mailbox.isSome
  | .mailboxCapacity _ => args.mailboxCapacity.isSome
  | .mailboxDispatchBudget _ => args.mailboxDispatchBudget.isSome
  | .maxInFlight _ => args.maxInFlight.isSome
  | .children => args.children.isSome
  | .maxChildren _ => args.maxChildren.isSome

def record (args : ActorArgs) (setting : Setting) : ActorArgs :=
  match setting with
  | .mailbox => { args with mailbox := some setting.name }
  | .mailboxCapacity limit =>
      { args with mailboxCapacity := some (setting.name, limit) }
  | .mailboxDispatchBudget budget =>
      { args with mailboxDispatchBudget := some (setting.name, budget) }
  | .maxInFlight limit =>
      { args with maxInFlight := some (setting.name, limit) }
  | .children => { args with children := some setting.name }
  | .maxChildren limit =>
      { args with maxChildren := some (setting.name, limit) }

theorem given_empty (setting : Setting) : setting.given {} = false := by
  cases setting <;> rfl

end Setting

/-!
## Values
-/

def Expr.Positive : Expr -> Prop
  | .int n => 0 < n ∧ n <= usizeMax
  | .lit _ => False
  | _ => True

theorem validateLiteral_ok {notInteger isZero : String} {e : Expr} :
    validateLiteral notInteger isZero e = .ok () <-> e.Positive := by
  cases e with
  | int n =>
      change (if usizeMax < n then _ else if n = 0 then _ else _) = _ <->
        0 < n ∧ n <= usizeMax
      by_cases hlarge : usizeMax < n
      · simp [hlarge, Nat.not_le.mpr hlarge]
      by_cases hzero : n = 0
      · simp [hzero]
      · rw [if_neg hlarge, if_neg hzero]
        exact ⟨fun _ => ⟨Nat.pos_of_ne_zero hzero, Nat.le_of_not_lt hlarge⟩,
          fun _ => rfl⟩
  | lit text => simp [validateLiteral, Expr.Positive]
  | path qself segments => exact ⟨fun _ => trivial, fun _ => rfl⟩
  | call func args => exact ⟨fun _ => trivial, fun _ => rfl⟩
  | other text => exact ⟨fun _ => trivial, fun _ => rfl⟩

inductive Expr.Limits : Expr -> LimitSpec -> Prop where
  | unbounded {e : Expr} (hword : expressionIdent e = some "unbounded") :
      Limits e .unbounded
  | dynamic {e : Expr} (hword : expressionIdent e = some "dynamic") :
      Limits e .dynamic
  | withDefault {func value : Expr}
      (hfunc : expressionIdent func = some "dynamic")
      (hpositive : value.Positive) :
      Limits (.call func [value]) (.dynamicWithDefault value)
  | fixed {e : Expr} (hunbounded : expressionIdent e ≠ some "unbounded")
      (hdynamic : expressionIdent e ≠ some "dynamic")
      (hcall : forall func args, e = .call func args ->
        expressionIdent func ≠ some "dynamic")
      (hpositive : e.Positive) : Limits e (.fixed e)

theorem ofExpr_ok {e : Expr} {quantity : String} {limit : LimitSpec} :
    LimitSpec.ofExpr e quantity = .ok limit <-> e.Limits limit := by
  constructor
  · intro h
    unfold LimitSpec.ofExpr at h
    split at h
    · rename_i hword
      cases h
      exact .unbounded hword
    rename_i hunbounded
    split at h
    · rename_i hword
      cases h
      exact .dynamic hword
    rename_i hdynamic
    split at h
    · rename_i func args
      split at h
      · rename_i hfunc
        split at h
        · rcases bind_ok.mp h with ⟨_, hvalid, h⟩
          cases h
          exact .withDefault hfunc (validateLiteral_ok.mp hvalid)
        · cases h
      · rename_i hfunc
        rcases bind_ok.mp h with ⟨_, hvalid, h⟩
        cases h
        refine .fixed hunbounded hdynamic ?_ (validateLiteral_ok.mp hvalid)
        intro func' args' heq
        cases heq
        exact hfunc
    · rename_i hcall
      rcases bind_ok.mp h with ⟨_, hvalid, h⟩
      cases h
      refine .fixed hunbounded hdynamic ?_ (validateLiteral_ok.mp hvalid)
      intro func' args' heq
      exact absurd heq (hcall func' args')
  · intro h
    cases h with
    | unbounded hword =>
        unfold LimitSpec.ofExpr
        rw [if_pos hword]
    | dynamic hword =>
        unfold LimitSpec.ofExpr
        rw [hword]
        rfl
    | withDefault hfunc hpositive =>
        unfold LimitSpec.ofExpr
        rw [if_neg (by simp [expressionIdent]),
          if_neg (by simp [expressionIdent])]
        simp only [if_pos hfunc]
        exact bind_of_ok (validateLiteral_ok.mpr hpositive) rfl
    | fixed hunbounded hdynamic hcall hpositive =>
        unfold LimitSpec.ofExpr
        rw [if_neg hunbounded, if_neg hdynamic]
        split
        · rename_i func args
          rw [if_neg (hcall func args rfl)]
          exact bind_of_ok (validateLiteral_ok.mpr hpositive) rfl
        · exact bind_of_ok (validateLiteral_ok.mpr hpositive) rfl

def ReadsLimit (syn : Syn) (limit : LimitSpec) (input rest : List Token) :
    Prop :=
  exists value e, input = .eq :: value ∧ syn.expr value = .ok (e, rest) ∧
    e.Limits limit

theorem parseRequiredLimit_ok {name : Ident} {quantity : String}
    {limit : LimitSpec} :
    parseRequiredLimit syn input name quantity = .ok (limit, rest) <->
      ReadsLimit syn limit input rest := by
  constructor
  · intro h
    rcases bind_ok.mp h with ⟨value, heq, h⟩
    rcases bind_ok.mp h with ⟨⟨e, rest'⟩, hexpr, h⟩
    rcases bind_ok.mp h with ⟨limit', hlimit, h⟩
    cases h
    exact ⟨value, e, parseEq_ok.mp heq, hexpr, ofExpr_ok.mp hlimit⟩
  · intro h
    rcases h with ⟨value, e, heq, hexpr, hlimit⟩
    apply bind_of_ok (parseEq_ok.mpr heq)
    apply bind_of_ok hexpr
    exact bind_of_ok (ofExpr_ok.mpr hlimit) rfl

/-!
## Settings
-/

def Setting.Reads (syn : Syn) (input rest : List Token) : Setting -> Prop
  | .mailbox => rest = input ∧ input.head? ≠ some .eq
  | .mailboxCapacity limit => ReadsLimit syn limit input rest
  | .mailboxDispatchBudget budget =>
      exists value, input = .eq :: value ∧
        syn.expr value = .ok (budget, rest) ∧ budget.Positive
  | .maxInFlight limit => ReadsLimit syn limit input rest
  | .children => rest = input ∧ input.head? ≠ some .eq
  | .maxChildren limit => ReadsLimit syn limit input rest

def Setting.Takes (syn : Syn) (setting : Setting) (input rest : List Token) :
    Prop :=
  exists tail, input = .ident setting.name :: tail ∧
    setting.Reads syn tail rest

theorem capability_ok {given : Option Ident} {name : Ident} {quantity : String}
    (next : ActorArgs) :
    (rejectDuplicate given name >>= fun _ =>
      rejectCapabilityValue input name quantity >>= fun rest =>
        pure (next, rest)) = .ok (args', rest) <->
      given = none ∧ (rest = input ∧ input.head? ≠ some .eq) ∧
        args' = next := by
  constructor
  · intro h
    rcases bind_ok.mp h with ⟨_, hdup, h⟩
    rcases bind_ok.mp h with ⟨rest', hvalue, h⟩
    cases h
    exact ⟨rejectDuplicate_ok.mp hdup, rejectCapabilityValue_ok.mp hvalue, rfl⟩
  · intro h
    rcases h with ⟨hdup, hvalue, hnext⟩
    apply bind_of_ok (rejectDuplicate_ok.mpr hdup)
    apply bind_of_ok (rejectCapabilityValue_ok.mpr hvalue)
    rw [hnext]
    rfl

theorem quantity_ok {given : Option (Ident × LimitSpec)} {name : Ident}
    {quantity : String} (next : LimitSpec -> ActorArgs) :
    (rejectDuplicate given name >>= fun _ =>
      parseRequiredLimit syn input name quantity >>= fun read =>
        pure (next read.1, read.2)) = .ok (args', rest) <->
      given = none ∧ exists limit, ReadsLimit syn limit input rest ∧
        args' = next limit := by
  constructor
  · intro h
    rcases bind_ok.mp h with ⟨_, hdup, h⟩
    rcases bind_ok.mp h with ⟨⟨limit, rest'⟩, hlimit, h⟩
    cases h
    exact ⟨rejectDuplicate_ok.mp hdup, limit, parseRequiredLimit_ok.mp hlimit,
      rfl⟩
  · intro h
    rcases h with ⟨hdup, limit, hlimit, hnext⟩
    apply bind_of_ok (rejectDuplicate_ok.mpr hdup)
    apply bind_of_ok (parseRequiredLimit_ok.mpr hlimit)
    rw [hnext]
    rfl

theorem parseOption_takes (h : args.parseOption syn input = .ok (args', rest)) :
    exists setting : Setting, setting.Takes syn input rest ∧
      setting.given args = false ∧ args' = setting.record args := by
  unfold ActorArgs.parseOption at h
  rcases bind_ok.mp h with ⟨⟨name, tail⟩, hident, h⟩
  have hinput := parseIdent_ok.mp hident
  change (if name = "mailbox" then _ else _) = _ at h
  split at h
  · rename_i hname
    subst hname
    rcases (capability_ok (Setting.mailbox.record args)).mp h with
      ⟨hdup, hreads, hargs⟩
    exact ⟨.mailbox, ⟨tail, hinput, hreads⟩, by simp [Setting.given, hdup],
      hargs⟩
  split at h
  · rename_i hname
    subst hname
    rcases (quantity_ok fun limit =>
      (Setting.mailboxCapacity limit).record args).mp h with
      ⟨hdup, limit, hreads, hargs⟩
    exact ⟨.mailboxCapacity limit, ⟨tail, hinput, hreads⟩,
      by simp [Setting.given, hdup], hargs⟩
  split at h
  · rename_i hname
    rcases bind_ok.mp h with ⟨_, hdup, h⟩
    rcases bind_ok.mp h with ⟨value, heq, h⟩
    rcases bind_ok.mp h with ⟨⟨budget, rest'⟩, hexpr, h⟩
    rcases bind_ok.mp h with ⟨_, hvalid, h⟩
    cases h
    subst hname
    exact ⟨.mailboxDispatchBudget budget,
      ⟨tail, hinput, value, parseEq_ok.mp heq, hexpr,
        validateLiteral_ok.mp hvalid⟩,
      by simp [Setting.given, rejectDuplicate_ok.mp hdup], rfl⟩
  split at h
  · rename_i hname
    subst hname
    rcases (quantity_ok fun limit =>
      (Setting.maxInFlight limit).record args).mp h with
      ⟨hdup, limit, hreads, hargs⟩
    exact ⟨.maxInFlight limit, ⟨tail, hinput, hreads⟩,
      by simp [Setting.given, hdup], hargs⟩
  split at h
  · rename_i hname
    subst hname
    rcases (capability_ok (Setting.children.record args)).mp h with
      ⟨hdup, hreads, hargs⟩
    exact ⟨.children, ⟨tail, hinput, hreads⟩, by simp [Setting.given, hdup],
      hargs⟩
  split at h
  · rename_i hname
    subst hname
    rcases (quantity_ok fun limit =>
      (Setting.maxChildren limit).record args).mp h with
      ⟨hdup, limit, hreads, hargs⟩
    exact ⟨.maxChildren limit, ⟨tail, hinput, hreads⟩,
      by simp [Setting.given, hdup], hargs⟩
  · cases h

theorem parseOption_of_takes {setting : Setting}
    (htakes : setting.Takes syn input rest)
    (hfresh : setting.given args = false) :
    args.parseOption syn input = .ok (setting.record args, rest) := by
  rcases htakes with ⟨tail, hinput, hreads⟩
  rw [hinput]
  apply bind_of_ok (a := (setting.name, tail)) rfl
  cases setting with
  | mailbox =>
      have hnone : args.mailbox = none := by
        simpa [Setting.given] using hfresh
      exact (capability_ok _).mpr ⟨hnone, hreads, rfl⟩
  | mailboxCapacity limit =>
      have hnone : args.mailboxCapacity = none := by
        simpa [Setting.given] using hfresh
      exact (quantity_ok fun limit =>
        (Setting.mailboxCapacity limit).record args).mpr
        ⟨hnone, limit, hreads, rfl⟩
  | mailboxDispatchBudget budget =>
      have hnone : args.mailboxDispatchBudget = none := by
        simpa [Setting.given] using hfresh
      rcases hreads with ⟨value, heq, hexpr, hpositive⟩
      apply bind_of_ok (rejectDuplicate_ok.mpr hnone)
      apply bind_of_ok (parseEq_ok.mpr heq)
      apply bind_of_ok hexpr
      exact bind_of_ok (validateLiteral_ok.mpr hpositive) rfl
  | maxInFlight limit =>
      have hnone : args.maxInFlight = none := by
        simpa [Setting.given] using hfresh
      exact (quantity_ok fun limit =>
        (Setting.maxInFlight limit).record args).mpr
        ⟨hnone, limit, hreads, rfl⟩
  | children =>
      have hnone : args.children = none := by
        simpa [Setting.given] using hfresh
      exact (capability_ok _).mpr ⟨hnone, hreads, rfl⟩
  | maxChildren limit =>
      have hnone : args.maxChildren = none := by
        simpa [Setting.given] using hfresh
      exact (quantity_ok fun limit =>
        (Setting.maxChildren limit).record args).mpr
        ⟨hnone, limit, hreads, rfl⟩

theorem Setting.Takes.shorter {setting : Setting}
    (h : setting.Takes syn input rest) : rest.length < input.length := by
  rcases h with ⟨tail, hinput, hreads⟩
  have hlimit : forall limit, ReadsLimit syn limit tail rest ->
      rest.length < tail.length := by
    intro limit hreads
    rcases hreads with ⟨value, e, heq, hexpr, _⟩
    have hshorter := syn.shorter hexpr
    rw [heq, List.length_cons]
    omega
  rw [hinput, List.length_cons]
  cases setting with
  | mailbox =>
      rw [hreads.left]
      omega
  | children =>
      rw [hreads.left]
      omega
  | mailboxCapacity limit =>
      have := hlimit limit hreads
      omega
  | maxInFlight limit =>
      have := hlimit limit hreads
      omega
  | maxChildren limit =>
      have := hlimit limit hreads
      omega
  | mailboxDispatchBudget budget =>
      rcases hreads with ⟨value, heq, hexpr, _⟩
      have hshorter := syn.shorter hexpr
      rw [heq, List.length_cons]
      omega

/-!
## The whole input
-/

def parseComma : List Token -> Except SynError (List Token)
  | [] => .ok []
  | .comma :: rest => .ok rest
  | token :: _ => .error ⟨.token token, "expected `,`"⟩

def Separated (input rest : List Token) : Prop :=
  input = [] ∧ rest = [] ∨ input = .comma :: rest

theorem parseComma_ok :
    parseComma input = .ok rest <-> Separated input rest := by
  constructor
  · intro h
    unfold parseComma at h
    split at h
    · cases h
      exact Or.inl ⟨rfl, rfl⟩
    · cases h
      exact Or.inr rfl
    · cases h
  · intro h
    cases h with
    | inl hend =>
        rw [hend.left, hend.right]
        rfl
    | inr hcomma =>
        rw [hcomma]
        rfl

theorem Separated.length_le (h : Separated input rest) :
    rest.length <= input.length := by
  rcases h with ⟨hinput, hrest⟩ | hcomma
  · subst hinput
    subst hrest
    exact Nat.le_refl _
  · rw [hcomma, List.length_cons]
    omega

theorem parseRound_shorter {next : ActorArgs} {tail : List Token}
    (hround : args.parseOption syn input = .ok (next, rest))
    (hcomma : parseComma rest = .ok tail) : tail.length < input.length := by
  rcases parseOption_takes hround with ⟨setting, htakes, _⟩
  exact Nat.lt_of_le_of_lt (parseComma_ok.mp hcomma).length_le htakes.shorter

def ActorArgs.parseFrom (syn : Syn) (args : ActorArgs) (input : List Token) :
    Except SynError ActorArgs :=
  if input = [] then
    .ok args
  else
    match hround : args.parseOption syn input with
    | .error e => .error e
    | .ok (next, rest) =>
        match hcomma : parseComma rest with
        | .error e => .error e
        | .ok tail =>
            have := parseRound_shorter hround hcomma
            ActorArgs.parseFrom syn next tail
termination_by input.length

def ActorArgs.parse (syn : Syn) (input : List Token) :
    Except SynError ActorArgs :=
  ActorArgs.parseFrom syn {} input

inductive Written (syn : Syn) : List Token -> List Setting -> Prop where
  | nil : Written syn [] []
  | cons {input rest tail : List Token} {setting : Setting}
      {settings : List Setting} (htakes : setting.Takes syn input rest)
      (hcomma : Separated rest tail) (hwritten : Written syn tail settings) :
      Written syn input (setting :: settings)

/-- None of the settings was given before, nor is one given twice. -/
def Fresh (args : ActorArgs) (settings : List Setting) : Prop :=
  (settings.map Setting.name).Nodup ∧
    forall setting, setting ∈ settings -> setting.given args = false

theorem Setting.given_record (setting other : Setting) (args : ActorArgs) :
    other.given (setting.record args) = false <->
      other.name ≠ setting.name ∧ other.given args = false := by
  cases setting <;> cases other <;>
    simp [Setting.given, Setting.record, Setting.name]

theorem fresh_cons {setting : Setting} {settings : List Setting} :
    Fresh args (setting :: settings) <->
      setting.given args = false ∧ Fresh (setting.record args) settings := by
  unfold Fresh
  rw [List.map_cons, List.nodup_cons]
  constructor
  · intro h
    rcases h with ⟨⟨hnew, hnodup⟩, hgiven⟩
    refine ⟨hgiven setting List.mem_cons_self, hnodup, ?_⟩
    intro other hother
    refine (setting.given_record other args).mpr ⟨?_, ?_⟩
    · intro hname
      exact hnew (hname ▸ List.mem_map_of_mem hother)
    · exact hgiven other (List.mem_cons_of_mem _ hother)
  · intro h
    rcases h with ⟨hfirst, hnodup, hgiven⟩
    refine ⟨⟨?_, hnodup⟩, ?_⟩
    · intro hmem
      rcases List.mem_map.mp hmem with ⟨other, hother, hname⟩
      exact ((setting.given_record other args).mp (hgiven other hother)).left
        hname
    · intro other hother
      cases List.mem_cons.mp hother with
      | inl heq => rwa [heq]
      | inr htail =>
          exact ((setting.given_record other args).mp
            (hgiven other htail)).right

theorem Setting.Takes.nonempty {setting : Setting}
    (h : setting.Takes syn input rest) : input ≠ [] := by
  intro hinput
  have hshorter := h.shorter
  rw [hinput] at hshorter
  exact Nat.not_lt_zero _ hshorter

theorem parseFrom_round {setting : Setting} {tail : List Token}
    (htakes : setting.Takes syn input rest)
    (hfresh : setting.given args = false) (hcomma : Separated rest tail) :
    args.parseFrom syn input = (setting.record args).parseFrom syn tail := by
  rw [ActorArgs.parseFrom, if_neg htakes.nonempty]
  split
  · rename_i e hround
    rw [parseOption_of_takes htakes hfresh] at hround
    cases hround
  · rename_i next rest' hround
    rw [parseOption_of_takes htakes hfresh] at hround
    cases hround
    split
    · rename_i e hend
      rw [parseComma_ok.mpr hcomma] at hend
      cases hend
    · rename_i tail' hend
      rw [parseComma_ok.mpr hcomma] at hend
      cases hend
      rfl

theorem parseFrom_writes (syn : Syn) (args : ActorArgs) (input : List Token)
    (h : args.parseFrom syn input = .ok args') :
    exists settings, Written syn input settings ∧ Fresh args settings ∧
      args' = settings.foldl Setting.record args := by
  induction args, input using ActorArgs.parseFrom.induct syn with
  | case1 args =>
      rw [ActorArgs.parseFrom, if_pos rfl] at h
      cases h
      exact ⟨[], .nil, ⟨List.nodup_nil, by simp⟩, rfl⟩
  | case2 args input hne e hround =>
      rw [ActorArgs.parseFrom, if_neg hne] at h
      split at h
      · cases h
      · rename_i hround'
        rw [hround] at hround'
        cases hround'
  | case3 args input hne next rest hround e hcomma =>
      rcases parseOption_takes hround with ⟨setting, htakes, hfresh, hnext⟩
      rw [ActorArgs.parseFrom, if_neg hne] at h
      split at h
      · cases h
      · rename_i hround'
        rw [hround] at hround'
        cases hround'
        split at h
        · cases h
        · rename_i hcomma'
          rw [hcomma] at hcomma'
          cases hcomma'
  | case4 args input hne next rest hround tail hcomma _ ih =>
      rcases parseOption_takes hround with ⟨setting, htakes, hfresh, hnext⟩
      subst hnext
      have hseparated := parseComma_ok.mp hcomma
      rw [parseFrom_round htakes hfresh hseparated] at h
      rcases ih h with ⟨settings, hwritten, hfresh', hargs⟩
      exact ⟨setting :: settings, .cons htakes hseparated hwritten,
        fresh_cons.mpr ⟨hfresh, hfresh'⟩, hargs⟩

theorem parseFrom_of_written {settings : List Setting}
    (hwritten : Written syn input settings) :
    forall args, Fresh args settings ->
      args.parseFrom syn input = .ok (settings.foldl Setting.record args) := by
  induction hwritten with
  | nil =>
      intro args _
      rw [ActorArgs.parseFrom, if_pos rfl]
      rfl
  | cons htakes hcomma _ ih =>
      intro args hfresh
      rcases fresh_cons.mp hfresh with ⟨hgiven, hfresh'⟩
      rw [parseFrom_round htakes hgiven hcomma]
      exact ih _ hfresh'

/-- The parser accepts the settings that are written once, and nothing else. -/
theorem parse_ok {input : List Token} :
    ActorArgs.parse syn input = .ok args <->
      exists settings, Written syn input settings ∧
        (settings.map Setting.name).Nodup ∧
          args = settings.foldl Setting.record {} := by
  constructor
  · intro h
    rcases parseFrom_writes syn {} input h with
      ⟨settings, hwritten, hfresh, hargs⟩
    exact ⟨settings, hwritten, hfresh.left, hargs⟩
  · intro h
    rcases h with ⟨settings, hwritten, hnodup, hargs⟩
    rw [hargs]
    exact parseFrom_of_written hwritten {} ⟨hnodup, fun setting _ => setting.given_empty⟩

/-!
## The order of the settings
-/

theorem Setting.record_injective {setting other : Setting}
    (h : setting.record {} = other.record {}) : setting = other := by
  cases setting <;> cases other <;> simp_all [Setting.record]

theorem Setting.Takes.unique {setting other : Setting} {rest' : List Token}
    (h : setting.Takes syn input rest) (h' : other.Takes syn input rest') :
    setting = other ∧ rest = rest' := by
  have hparse := parseOption_of_takes h setting.given_empty
  rw [parseOption_of_takes h' other.given_empty, Except.ok.injEq,
    Prod.mk.injEq] at hparse
  exact ⟨Setting.record_injective hparse.left.symm, hparse.right.symm⟩

theorem Separated.unique {tail tail' : List Token} (h : Separated input tail)
    (h' : Separated input tail') : tail = tail' := by
  have hparse := parseComma_ok.mpr h
  rw [parseComma_ok.mpr h', Except.ok.injEq] at hparse
  exact hparse.symm

theorem Written.unique {settings settings' : List Setting}
    (h : Written syn input settings) :
    Written syn input settings' -> settings = settings' := by
  induction h generalizing settings' with
  | nil =>
      intro h'
      cases h' with
      | nil => rfl
      | cons htakes _ _ => exact absurd rfl htakes.nonempty
  | cons htakes hcomma _ ih =>
      intro h'
      cases h' with
      | nil => exact absurd rfl htakes.nonempty
      | cons htakes' hcomma' hwritten' =>
          rcases htakes.unique htakes' with ⟨hsetting, hrest⟩
          subst hsetting
          subst hrest
          have htail := hcomma.unique hcomma'
          subst htail
          rw [ih hwritten']

theorem Setting.record_comm {setting other : Setting}
    (hname : setting.name ≠ other.name) (args : ActorArgs) :
    setting.record (other.record args) = other.record (setting.record args) := by
  cases setting <;> cases other <;>
    first
    | rfl
    | exact absurd rfl hname

theorem foldl_record_perm {settings settings' : List Setting}
    (hnodup : (settings.map Setting.name).Nodup)
    (hperm : settings.Perm settings') :
    settings.foldl Setting.record {} = settings'.foldl Setting.record {} := by
  apply hperm.foldl_eq'
  intro setting hsetting other hother args
  by_cases heq : setting = other
  · rw [heq]
  · have hname : other.name ≠ setting.name := by
      intro hname
      exact heq (List.inj_on_of_nodup_map hnodup hsetting hother hname.symm)
    exact Setting.record_comm hname args

theorem parse_perm {input' : List Token} {settings settings' : List Setting}
    (h : ActorArgs.parse syn input = .ok args)
    (hwritten : Written syn input settings)
    (hwritten' : Written syn input' settings')
    (hperm : settings.Perm settings') :
    ActorArgs.parse syn input' = .ok args := by
  rcases parse_ok.mp h with ⟨settings₀, hwritten₀, hnodup, hargs⟩
  have hsame := hwritten₀.unique hwritten
  subst hsame
  apply parse_ok.mpr
  refine ⟨settings', hwritten', ?_, ?_⟩
  · exact (hperm.map Setting.name).nodup_iff.mp hnodup
  · rw [hargs]
    exact foldl_record_perm hnodup hperm

end Macros
end Loac

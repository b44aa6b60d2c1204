import Mathlib.Logic.Basic

/-!
# Arguments of the actor attribute

The attribute of an actor declares what the actor can do: whether it has a
mailbox and children, and how large their limits are.  Its arguments are
options with commas between them.  A capability is a bare word, a quantity is a
word with a value.

The parser of expressions is not part of the repository.  All that is known of
it is that an expression is a part of the input at its front.
-/

namespace Loac
namespace Macros

abbrev Ident := String

inductive Expr where
  /-- A path, as far as anybody looks at it. -/
  | path (qself : Bool) (segments : List Ident)
  | call (func : Expr) (args : List Expr)
  | int (value : Nat)
  | lit (text : String)
  | other (text : String)

inductive Token where
  | ident (name : Ident)
  | keyword (text : String)
  | eq
  | comma
  | other (text : String)

inductive Spot where
  | name (name : Ident)
  | expr (expr : Expr)
  | token (token : Token)
  /-- The trait path of the implementation, or all of it. -/
  | implementation (path : Option (List Ident))
  | callSite

structure SynError where
  spot : Spot
  message : String

structure Syn where
  expr : List Token -> Except SynError (Expr × List Token)
  front : forall input e rest, expr input = .ok (e, rest) ->
    exists used, used ≠ [] ∧ input = used ++ rest

theorem Syn.shorter (syn : Syn) {input rest : List Token} {e : Expr}
    (h : syn.expr input = .ok (e, rest)) : rest.length < input.length := by
  rcases syn.front input e rest h with ⟨used, hused, heq⟩
  have hpos := List.length_pos_iff.mpr hused
  rw [heq, List.length_append]
  omega

/-!
## Limits
-/

def expressionIdent : Expr -> Option Ident
  | .path false [name] => some name
  | _ => none

inductive LimitSpec where
  | unbounded
  | fixed (limit : Expr)
  | dynamic
  | dynamicWithDefault (limit : Expr)

/-- The largest `usize` where the attribute is expanded. -/
def usizeMax : Nat := 18446744073709551615

/--
A literal has to be a positive integer.  What else an expression is worth turns
out only when the compiler evaluates it.
-/
def validateLiteral (notInteger isZero : String) (value : Expr) :
    Except SynError Unit :=
  match value with
  | .int n =>
      if usizeMax < n then
        .error ⟨.expr value, "number too large to fit in target type"⟩
      else if n = 0 then
        .error ⟨.expr value, isZero⟩
      else
        .ok ()
  | .lit _ => .error ⟨.expr value, notInteger⟩
  | _ => .ok ()

def limitError : String :=
  "expected a const expression, `unbounded`, `dynamic`, or `dynamic(N)`"

def validateLimitExpression (capacity : Expr) (quantity : String) :
    Except SynError Unit :=
  validateLiteral limitError s!"{quantity} must be greater than zero" capacity

def validateMailboxDispatchBudget (budget : Expr) : Except SynError Unit :=
  validateLiteral "expected an integer const expression"
    "mailbox dispatch budget must be greater than zero" budget

def LimitSpec.ofExpr (capacity : Expr) (quantity : String) :
    Except SynError LimitSpec :=
  if expressionIdent capacity = some "unbounded" then
    .ok .unbounded
  else if expressionIdent capacity = some "dynamic" then
    .ok .dynamic
  else
    match capacity with
    | .call func args =>
        if expressionIdent func = some "dynamic" then
          match args with
          | [default] => do
              validateLimitExpression default quantity
              return .dynamicWithDefault default
          | _ =>
              .error ⟨.expr capacity,
                s!"`dynamic(...)` requires one default {quantity}"⟩
        else do
          validateLimitExpression capacity quantity
          return .fixed capacity
    | _ => do
        validateLimitExpression capacity quantity
        return .fixed capacity

def LimitSpec.parse (syn : Syn) (input : List Token) (quantity : String) :
    Except SynError (LimitSpec × List Token) := do
  let (capacity, rest) <- syn.expr input
  let limit <- LimitSpec.ofExpr capacity quantity
  return (limit, rest)

/-!
## Options
-/

def parseIdent : List Token -> Except SynError (Ident × List Token)
  | .ident name :: rest => .ok (name, rest)
  | .keyword text :: _ =>
      .error ⟨.token (.keyword text),
        s!"expected identifier, found keyword `{text}`"⟩
  | token :: _ => .error ⟨.token token, "expected identifier"⟩
  | [] => .error ⟨.name "", "unexpected end of input, expected identifier"⟩

def rejectDuplicate {α : Type} (given : Option α) (name : Ident) :
    Except SynError Unit :=
  match given with
  | some _ => .error ⟨.name name, s!"duplicate `{name}` option"⟩
  | none => .ok ()

def rejectCapabilityValue (input : List Token) (capability : Ident)
    (quantity : String) : Except SynError (List Token) :=
  match input with
  | .eq :: _ =>
      .error ⟨.name capability,
        s!"`{capability}` accepts no value; configure `{quantity}`"⟩
  | _ => .ok input

def parseEq (input : List Token) (name : Ident) (value : String) :
    Except SynError (List Token) :=
  match input with
  | .eq :: rest => .ok rest
  | _ => .error ⟨.name name, s!"`{name}` requires `= <{value}>`"⟩

def parseRequiredLimit (syn : Syn) (input : List Token) (name : Ident)
    (quantity : String) : Except SynError (LimitSpec × List Token) := do
  let rest <- parseEq input name "limit"
  LimitSpec.parse syn rest quantity

structure ActorArgs where
  mailbox : Option Ident := none
  mailboxCapacity : Option (Ident × LimitSpec) := none
  mailboxDispatchBudget : Option (Ident × Expr) := none
  maxInFlight : Option (Ident × LimitSpec) := none
  children : Option Ident := none
  maxChildren : Option (Ident × LimitSpec) := none

def unsupportedOption : String :=
  "unsupported actor option; expected `mailbox`, `mailbox_capacity`, " ++
    "`mailbox_dispatch_budget`, `max_in_flight`, `children`, or `max_children`"

def ActorArgs.parseOption (syn : Syn) (args : ActorArgs) (input : List Token) :
    Except SynError (ActorArgs × List Token) := do
  let (name, input) <- parseIdent input
  if name = "mailbox" then
    rejectDuplicate args.mailbox name
    let rest <- rejectCapabilityValue input name "mailbox_capacity"
    return ({ args with mailbox := some name }, rest)
  else if name = "mailbox_capacity" then
    rejectDuplicate args.mailboxCapacity name
    let (capacity, rest) <-
      parseRequiredLimit syn input name "mailbox capacity"
    return ({ args with mailboxCapacity := some (name, capacity) }, rest)
  else if name = "mailbox_dispatch_budget" then
    rejectDuplicate args.mailboxDispatchBudget name
    let value <- parseEq input name "const expression"
    let (budget, rest) <- syn.expr value
    validateMailboxDispatchBudget budget
    return ({ args with mailboxDispatchBudget := some (name, budget) }, rest)
  else if name = "max_in_flight" then
    rejectDuplicate args.maxInFlight name
    let (limit, rest) <- parseRequiredLimit syn input name "handler limit"
    return ({ args with maxInFlight := some (name, limit) }, rest)
  else if name = "children" then
    rejectDuplicate args.children name
    let rest <- rejectCapabilityValue input name "max_children"
    return ({ args with children := some name }, rest)
  else if name = "max_children" then
    rejectDuplicate args.maxChildren name
    let (limit, rest) <- parseRequiredLimit syn input name "child limit"
    return ({ args with maxChildren := some (name, limit) }, rest)
  else
    .error ⟨.name name, unsupportedOption⟩

/-!
## What a round takes
-/

theorem bind_ok {ε α β : Type} {x : Except ε α} {f : α -> Except ε β} {b : β} :
    (x >>= f) = .ok b <-> exists a, x = .ok a ∧ f a = .ok b := by
  cases x with
  | error e =>
      constructor
      · intro h
        cases h
      · intro h
        rcases h with ⟨a, ha, _⟩
        cases ha
  | ok a =>
      constructor
      · intro h
        exact ⟨a, rfl, h⟩
      · intro h
        rcases h with ⟨a', ha, hf⟩
        cases ha
        exact hf

theorem bind_of_ok {ε α β : Type} {x : Except ε α} {f : α -> Except ε β}
    {a : α} {b : β} (hx : x = .ok a) (hf : f a = .ok b) : (x >>= f) = .ok b :=
  bind_ok.mpr ⟨a, hx, hf⟩

theorem parseIdent_ok {input rest : List Token} {name : Ident} :
    parseIdent input = .ok (name, rest) <-> input = .ident name :: rest := by
  constructor
  · intro h
    unfold parseIdent at h
    split at h <;> cases h
    rfl
  · intro h
    rw [h]
    rfl

theorem rejectDuplicate_ok {α : Type} {given : Option α} {name : Ident} :
    rejectDuplicate given name = .ok () <-> given = none := by
  cases given with
  | none => exact ⟨fun _ => rfl, fun _ => rfl⟩
  | some a =>
      constructor
      · intro h
        cases h
      · intro h
        cases h

theorem rejectCapabilityValue_ok {input rest : List Token} {name : Ident}
    {quantity : String} :
    rejectCapabilityValue input name quantity = .ok rest <->
      rest = input ∧ input.head? ≠ some .eq := by
  unfold rejectCapabilityValue
  split
  · simp
  · rename_i hne
    have hhead : input.head? ≠ some .eq := by
      intro h
      cases input with
      | nil => cases h
      | cons token tail =>
          rw [List.head?_cons, Option.some.injEq] at h
          exact hne tail (by rw [h])
    constructor
    · intro h
      cases h
      exact ⟨rfl, hhead⟩
    · intro h
      rw [h.left]

theorem parseEq_ok {input rest : List Token} {name : Ident} {value : String} :
    parseEq input name value = .ok rest <-> input = .eq :: rest := by
  constructor
  · intro h
    unfold parseEq at h
    split at h <;> cases h
    rfl
  · intro h
    rw [h]
    rfl

end Macros
end Loac

import Mathlib.Data.Int.Basic
import Mathlib.Tactic.Common
import RpcTransport.Lib.Promise
import RpcTransport.Lib.Transition

/-!
# The Cap'n Proto calculator

`calculator-server.c++` evaluates expressions over RPC.  An expression may contain the results of
earlier `evaluate` calls and call functions: those the client has defined, the operators, and
functions that live in the client.  The client sends a request before the earlier ones have
returned, and refers to their results by the capabilities it was promised, here the numbers of the
requests.

`evaluateImpl` goes through the whole expression at once and leaves a tree of promises; what the
event loop then does with it, in any order, is `CalcStep`.  `FunctionImpl::call` runs `evaluateImpl`
on the stored body, so a call turns into another tree.

The numbers are those of any type with the four operations.
-/

namespace RpcTransport.Calculator

open Promises

/-! ### The interface -/

/-- `Calculator.Operator`; an enumerant of a later version of the schema arrives as its number. -/
inductive Operator
  | add
  | subtract
  | multiply
  | divide
  | unknown (raw : UInt16)
  deriving DecidableEq

/-- A capability for a `Calculator.Function`: what a `defFunction` or `getOperator` request returns,
or an object of the client. -/
inductive FunctionCap
  | server (request : ℕ)
  | client (object : ℕ)
  deriving DecidableEq

/-- `Calculator.Expression`; a `Value` is what an `evaluate` request returns. -/
inductive Expression (α : Type) where
  | literal (value : α)
  | previousResult (value : ℕ)
  | parameter (index : UInt32)
  | call (function : FunctionCap) (params : List (Expression α))
  | unknown

/-- A `kj::Promise<double>`, on the way. -/
abbrev Evaluation (α : Type) := Promise FunctionCap ℕ α String

variable {α : Type}

/-! ### Evaluation -/

mutual

/-- `evaluateImpl`: the promise it returns, or the exception it throws. -/
def evaluateImpl (params : List α) : Expression α → Except String (Evaluation α)
  | .literal value => .ok (.settled (.ok value))
  | .previousResult value => .ok (.reading value)
  | .parameter index =>
      match params[index.toNat]? with
      | some value => .ok (.settled (.ok value))
      | none => .error "Parameter index out-of-range."
  | .call function ps =>
      match evaluateParams params ps with
      | .ok paramPromises => .ok (.joining function paramPromises)
      | .error e => .error e
  | .unknown => .error "Unknown expression type."

/-- `KJ_MAP(param, call.getParams())`. -/
def evaluateParams (params : List α) : List (Expression α) → Except String (List (Evaluation α))
  | [] => .ok []
  | p :: ps =>
      match evaluateImpl params p with
      | .error e => .error e
      | .ok q =>
          match evaluateParams params ps with
          | .error e => .error e
          | .ok qs => .ok (q :: qs)

end

/-- What a call of a server's method turns into: an exception it throws rejects the call. -/
def ofThrow : Except String (Evaluation α) → Evaluation α
  | .ok p => p
  | .error e => .settled (.error e)

/-! ### Functions -/

/-- `FunctionImpl::call`. -/
def FunctionImpl.call (paramCount : UInt32) (body : Expression α) (params : List α) :
    Except String (Evaluation α) :=
  if params.length = paramCount.toNat then evaluateImpl params body
  else .error "Wrong number of parameters."

section Operators

variable [Add α] [Sub α] [Mul α] [Div α]

/-- `OperatorImpl::call`. -/
def OperatorImpl.call (op : Operator) (params : List α) : Except String α :=
  match params with
  | [a, b] =>
      match op with
      | .add => .ok (a + b)
      | .subtract => .ok (a - b)
      | .multiply => .ok (a * b)
      | .divide => .ok (a / b)
      | .unknown _ => .error "Unknown operator."
  | _ => .error "Wrong number of parameters."

end Operators

/-- The objects behind the server's `Function` capabilities. -/
inductive FunctionObject (α : Type) where
  | functionImpl (paramCount : UInt32) (body : Expression α)
  | operatorImpl (op : Operator)

/-! ### Requests and objects -/

/-- The methods of `Calculator`. -/
inductive Request (α : Type) where
  | evaluate (expression : Expression α)
  | defFunction (paramCount : Int32) (body : Expression α)
  | getOperator (op : Operator)

/-- What a request has led to: a `Value`, or the promise of one, with the calls made for it so far;
or a function. -/
inductive Object (α : Type) where
  | value (p : Evaluation α) (made : List (FunctionCap × List α))
  | function (f : FunctionObject α)

/-- `CalculatorImpl`.  The parameter count is a signed number in the schema, unsigned in the
object. -/
def CalculatorImpl.handle : Request α → Object α
  | .evaluate expression => .value (ofThrow (evaluateImpl [] expression)) []
  | .defFunction paramCount body => .function (.functionImpl paramCount.toUInt32 body)
  | .getOperator op => .function (.operatorImpl op)

/-- The functions that live in the client: what the call of an object returns or throws.  Each call
is answered, and the answer depends on the arguments alone, as `calculator.capnp` asks of a
`Function`. -/
abbrev Callbacks (α : Type) := ℕ → List α → Except String α

section Runs

variable [Add α] [Sub α] [Mul α] [Div α]

def FunctionObject.call (params : List α) : FunctionObject α → Evaluation α
  | .functionImpl paramCount body => ofThrow (FunctionImpl.call paramCount body params)
  | .operatorImpl op => .settled (OperatorImpl.call op params)

/-- Calling a method that the object behind a capability does not have.  The types of a client's
capabilities rule it out, and `WellScoped` sessions have none of it. -/
def unimplemented : String := "Requested interface not implemented."

/-- `ValueImpl::read`, by way of a capability that may still be a promise. -/
def readValue (objs : List (Object α)) (value : ℕ) : Option (Except String α) :=
  match objs[value]? with
  | some (.value (.settled r) _) => some r
  | some (.function _) => some (.error unimplemented)
  | _ => none

/-- A `callRequest` arrives at its function. -/
def deliverCall (callbacks : Callbacks α) (objs : List (Object α)) (f : FunctionCap)
    (params : List α) : Evaluation α :=
  match f with
  | .server request =>
      match objs[request]? with
      | some (.function g) => g.call params
      | _ => .settled (.error unimplemented)
  | .client object => .settled (callbacks object params)

/-- The moves of the server for a client that sends the requests of `session`: the next request
arrives, or the event loop takes one step for a value. -/
inductive CalcStep (session : List (Request α)) (callbacks : Callbacks α) (_ : Unit)
    (objs : List (Object α)) : List (Object α) → Prop
  | accept {request : Request α} (h : session[objs.length]? = some request) :
      CalcStep session callbacks () objs (objs ++ [CalculatorImpl.handle request])
  | work {r : ℕ} {p p' : Evaluation α} {made : List (FunctionCap × List α)}
      {e : Option (FunctionCap × List α)} (h : objs[r]? = some (.value p made))
      (hstep : Step (readValue objs) (deliverCall callbacks objs) p e p') :
      CalcStep session callbacks () objs (objs.set r (.value p' (made ++ e.toList)))

end Runs

/-! ### Expressions -/

/-- Induction over an expression, with the hypothesis for each parameter of a call. -/
theorem Expression.ind {P : Expression α → Prop} (literal : ∀ v, P (.literal v))
    (previousResult : ∀ v, P (.previousResult v)) (parameter : ∀ i, P (.parameter i))
    (call : ∀ f ps, (∀ p ∈ ps, P p) → P (.call f ps)) (unknown : P .unknown)
    (e : Expression α) : P e :=
  @Expression.rec α P (fun ps => ∀ p ∈ ps, P p) literal previousResult parameter call unknown
    (fun _ h => absurd h List.not_mem_nil)
    (fun _ _ hp hps => List.forall_mem_cons.mpr ⟨hp, hps⟩) e

mutual

/-- The body with the first parameters replaced by values. -/
def Expression.subst (args : List α) : Expression α → Expression α
  | .parameter index =>
      match args[index.toNat]? with
      | some value => .literal value
      | none => .parameter index
  | .call function ps => .call function (substAll args ps)
  | .literal value => .literal value
  | .previousResult value => .previousResult value
  | .unknown => .unknown

def substAll (args : List α) : List (Expression α) → List (Expression α)
  | [] => []
  | p :: ps => p.subst args :: substAll args ps

end

/-- The parameters of a call, one by one. -/
theorem evaluateParams_congr {args args' : List α} {g : Expression α → Expression α}
    {ps : List (Expression α)} (h : ∀ p ∈ ps, evaluateImpl args' (g p) = evaluateImpl args p) :
    evaluateParams args' (ps.map g) = evaluateParams args ps := by
  induction ps with
  | nil => rfl
  | cons p ps ih =>
      rw [List.forall_mem_cons] at h
      rw [List.map_cons, evaluateParams, evaluateParams, h.1, ih h.2]

theorem substAll_eq (args : List α) (ps : List (Expression α)) :
    substAll args ps = ps.map (Expression.subst args) := by
  induction ps with
  | nil => rfl
  | cons p ps ih => rw [substAll, ih, List.map_cons]

/-- **Substitution.**  Evaluating with parameters gives the very promises, or the very exception,
of evaluating the substituted expression without any. -/
theorem evaluateImpl_subst (args : List α) (e : Expression α) :
    evaluateImpl [] (e.subst args) = evaluateImpl args e := by
  induction e using Expression.ind with
  | literal v => rfl
  | previousResult v => rfl
  | parameter i =>
      rw [Expression.subst, evaluateImpl]
      cases args[i.toNat]? with
      | some v => rfl
      | none => rfl
  | call f ps ih =>
      rw [Expression.subst, evaluateImpl, evaluateImpl, substAll_eq, evaluateParams_congr ih]
  | unknown => rfl

end RpcTransport.Calculator

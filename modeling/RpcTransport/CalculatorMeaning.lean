import RpcTransport.Calculator

/-!
# The calculator, evaluated in order

What a session of requests comes to when every request is evaluated to its end before the next one
and every call is waited for: `meanings`.  The definitions follow the grammar of expressions, not
the promises; `evaluateImpl_follows` connects the two, the whole of a tree of promises with the
expression it was made from.

A client can refer only to what its own earlier requests have promised it (`WellScoped`).  Then each
request means the same in the session so far and in the finished session
(`WellScoped.meanings_get`).
-/

namespace RpcTransport.Calculator

open Promises

variable {α : Type}

/-! ### Evaluation in order -/

mutual

/-- What `evaluateImpl` throws with `n` parameters, if anything: the first error from the left. -/
def Expression.check (n : ℕ) : Expression α → Option String
  | .literal _ => none
  | .previousResult _ => none
  | .parameter index => if index.toNat < n then none else some "Parameter index out-of-range."
  | .call _ ps => checkAll n ps
  | .unknown => some "Unknown expression type."

def checkAll (n : ℕ) : List (Expression α) → Option String
  | [] => none
  | p :: ps =>
      match p.check n with
      | some err => some err
      | none => checkAll n ps

end

section

variable (m : Model FunctionCap ℕ α String) (args : List α)

mutual

/-- The result of an expression, its calls waited for one after the other. -/
def Expression.eval : Expression α → Except String α
  | .literal value => .ok value
  | .previousResult value => m.val value
  | .parameter index =>
      match args[index.toNat]? with
      | some value => .ok value
      | none => .error "Parameter index out-of-range."
  | .call function ps => m.apply function (evalAll ps)
  | .unknown => .error "Unknown expression type."

def evalAll : List (Expression α) → List (Except String α)
  | [] => []
  | p :: ps => p.eval :: evalAll ps

end

mutual

/-- The calls made for it. -/
def Expression.calls : Expression α → Multiset (FunctionCap × List α)
  | .call function ps => callsAll ps + m.applyCalls function (evalAll m args ps)
  | .literal _ => 0
  | .previousResult _ => 0
  | .parameter _ => 0
  | .unknown => 0

def callsAll : List (Expression α) → Multiset (FunctionCap × List α)
  | [] => 0
  | p :: ps => p.calls + callsAll ps

end

mutual

/-- A bound on the steps it takes. -/
def Expression.cost : Expression α → ℕ
  | .call function ps => costAll ps + m.cost function + 2
  | .previousResult _ => 1
  | .literal _ => 0
  | .parameter _ => 0
  | .unknown => 0

def costAll : List (Expression α) → ℕ
  | [] => 0
  | p :: ps => p.cost + costAll ps

end

/-- An expression is gone through as a whole before anything is evaluated. -/
def Expression.result (e : Expression α) : Except String α :=
  match e.check args.length with
  | some err => .error err
  | none => e.eval m args

def Expression.resultCalls (e : Expression α) : Multiset (FunctionCap × List α) :=
  match e.check args.length with
  | some _ => 0
  | none => e.calls m args

end

mutual

/-- All functions and values of an expression are of the given kinds. -/
def Expression.Uses (F : FunctionCap → Prop) (V : ℕ → Prop) : Expression α → Prop
  | .previousResult value => V value
  | .call function ps => F function ∧ UsesEach F V ps
  | .literal _ => True
  | .parameter _ => True
  | .unknown => True

def UsesEach (F : FunctionCap → Prop) (V : ℕ → Prop) : List (Expression α) → Prop
  | [] => True
  | p :: ps => p.Uses F V ∧ UsesEach F V ps

end

theorem evalAll_eq (m : Model FunctionCap ℕ α String) (args : List α) (ps : List (Expression α)) :
    evalAll m args ps = ps.map (Expression.eval m args) := by
  induction ps with
  | nil => rfl
  | cons p ps ih => rw [evalAll, ih, List.map_cons]

theorem callsAll_eq (m : Model FunctionCap ℕ α String) (args : List α) (ps : List (Expression α)) :
    callsAll m args ps = (ps.map (Expression.calls m args)).sum := by
  induction ps with
  | nil => rfl
  | cons p ps ih => rw [callsAll, ih, List.map_cons, List.sum_cons]

theorem costAll_eq (m : Model FunctionCap ℕ α String) (ps : List (Expression α)) :
    costAll m ps = (ps.map (Expression.cost m)).sum := by
  induction ps with
  | nil => rfl
  | cons p ps ih => rw [costAll, ih, List.map_cons, List.sum_cons]

theorem usesEach_iff {F : FunctionCap → Prop} {V : ℕ → Prop} (ps : List (Expression α)) :
    UsesEach F V ps ↔ ∀ p ∈ ps, p.Uses F V := by
  induction ps with
  | nil => simp [UsesEach]
  | cons p ps ih => rw [UsesEach, ih, List.forall_mem_cons]

theorem Expression.Uses.mono {F F' : FunctionCap → Prop} {V V' : ℕ → Prop}
    (hF : ∀ f, F f → F' f) (hV : ∀ v, V v → V' v) (e : Expression α) :
    e.Uses F V → e.Uses F' V' := by
  induction e using Expression.ind with
  | literal v => exact id
  | previousResult v => exact hV v
  | parameter i => exact id
  | call f ps ih =>
      rintro ⟨hf, hps⟩
      rw [usesEach_iff] at hps
      exact ⟨hF f hf, (usesEach_iff ps).mpr fun p hp => ih p hp (hps p hp)⟩
  | unknown => exact id

/-! ### The tree of promises of an expression -/

/-- What a tree of promises has to do with the expression it was made from. -/
structure Follows (m : Model FunctionCap ℕ α String) (F : FunctionCap → Prop) (V : ℕ → Prop)
    (args : List α) (e : Expression α) (p : Evaluation α) : Prop where
  check : e.check args.length = none
  denote : p.denote m = e.eval m args
  trace : p.trace m = e.calls m args
  rank : p.rank m ≤ e.cost m
  uses : e.Uses F V → p.Uses F V

/-- What `evaluateImpl` and `evaluateParams` return follows, what they throw was to be thrown. -/
def FollowsOrThrows (m : Model FunctionCap ℕ α String) (F : FunctionCap → Prop) (V : ℕ → Prop)
    (args : List α) (e : Expression α) : Except String (Evaluation α) → Prop
  | .ok p => Follows m F V args e p
  | .error err => e.check args.length = some err

section

variable {m : Model FunctionCap ℕ α String} {F : FunctionCap → Prop} {V : ℕ → Prop}
variable {args : List α}

/-- The parameters of a call: all of them follow, or the first error from the left is thrown. -/
theorem evaluateParams_follows {ps : List (Expression α)}
    (h : ∀ p ∈ ps, FollowsOrThrows m F V args p (evaluateImpl args p)) :
    (∃ qs, evaluateParams args ps = .ok qs ∧ List.Forall₂ (Follows m F V args) ps qs) ∨
      ∃ err, evaluateParams args ps = .error err ∧ checkAll args.length ps = some err := by
  induction ps with
  | nil => exact .inl ⟨[], rfl, .nil⟩
  | cons p ps ih =>
      rw [List.forall_mem_cons] at h
      obtain ⟨hp, hps⟩ := h
      rw [evaluateParams, checkAll]
      cases hq : evaluateImpl args p with
      | error err =>
          rw [hq] at hp
          have hcheck : p.check args.length = some err := hp
          rw [hcheck]
          exact .inr ⟨err, rfl, rfl⟩
      | ok q =>
          rw [hq] at hp
          have hfollows : Follows m F V args p q := hp
          rw [hfollows.check]
          rcases ih hps with ⟨qs, hqs, hall⟩ | ⟨err, herr, hcheck⟩
          · rw [hqs]
            exact .inl ⟨q :: qs, rfl, .cons hfollows hall⟩
          · rw [herr]
            exact .inr ⟨err, rfl, hcheck⟩

/-- What follows parameter by parameter follows as a list. -/
theorem follows_all {ps : List (Expression α)} {qs : List (Evaluation α)}
    (h : List.Forall₂ (Follows m F V args) ps qs) :
    checkAll args.length ps = none ∧ denoteAll m qs = evalAll m args ps ∧
      traceAll m qs = callsAll m args ps ∧ rankAll m qs ≤ costAll m ps ∧
      (UsesEach F V ps → UsesAll F V qs) := by
  induction h with
  | nil => exact ⟨rfl, rfl, rfl, Nat.le_refl 0, id⟩
  | @cons p q ps qs hp _ ih =>
      obtain ⟨hcheck, hdenote, htrace, hrank, huses⟩ := ih
      refine ⟨?_, ?_, ?_, ?_, ?_⟩
      · rw [checkAll, hp.check]
        exact hcheck
      · rw [denoteAll, evalAll, hp.denote, hdenote]
      · rw [traceAll, callsAll, hp.trace, htrace]
      · rw [rankAll, costAll]
        exact Nat.add_le_add hp.rank hrank
      · rintro ⟨hone, hrest⟩
        exact ⟨hp.uses hone, huses hrest⟩

/-- **The spec of `evaluateImpl`.** -/
theorem evaluateImpl_follows (m : Model FunctionCap ℕ α String) (F : FunctionCap → Prop)
    (V : ℕ → Prop) (args : List α) (e : Expression α) :
    FollowsOrThrows m F V args e (evaluateImpl args e) := by
  induction e using Expression.ind with
  | literal v => exact ⟨rfl, rfl, rfl, Nat.le_refl 0, id⟩
  | previousResult v => exact ⟨rfl, rfl, rfl, Nat.le_refl 1, id⟩
  | parameter i =>
      rw [evaluateImpl]
      by_cases hi : i.toNat < args.length
      · rw [List.getElem?_eq_getElem hi]
        refine ⟨?_, ?_, rfl, Nat.le_refl 0, id⟩
        · rw [Expression.check, if_pos hi]
        · rw [Expression.eval, List.getElem?_eq_getElem hi, Promise.denote]
      · rw [List.getElem?_eq_none (Nat.le_of_not_lt hi)]
        show Expression.check _ _ = _
        rw [Expression.check, if_neg hi]
  | call f ps ih =>
      rw [evaluateImpl]
      rcases evaluateParams_follows ih with ⟨qs, hqs, hall⟩ | ⟨err, herr, hcheck⟩
      · rw [hqs]
        obtain ⟨hcheck, hdenote, htrace, hrank, huses⟩ := follows_all hall
        refine ⟨hcheck, ?_, ?_, ?_, ?_⟩
        · rw [Promise.denote, Expression.eval, hdenote]
        · rw [Promise.trace, Expression.calls, hdenote, htrace]
        · rw [Promise.rank, Expression.cost]
          omega
        · rintro ⟨hf, hps⟩
          exact ⟨hf, huses hps⟩
      · rw [herr]
        exact hcheck
  | unknown => rfl

/-- What a server's method that runs `evaluateImpl` turns into. -/
theorem ofThrow_evaluateImpl (m : Model FunctionCap ℕ α String) (args : List α)
    (e : Expression α) :
    (ofThrow (evaluateImpl args e)).denote m = e.result m args ∧
      (ofThrow (evaluateImpl args e)).trace m = e.resultCalls m args ∧
      (ofThrow (evaluateImpl args e)).rank m ≤ e.cost m := by
  have h := evaluateImpl_follows m (fun _ => True) (fun _ => True) args e
  rw [Expression.result, Expression.resultCalls]
  cases hq : evaluateImpl args e with
  | ok p =>
      rw [hq] at h
      have hfollows : Follows m (fun _ => True) (fun _ => True) args e p := h
      rw [hfollows.check]
      exact ⟨hfollows.denote, hfollows.trace, hfollows.rank⟩
  | error err =>
      rw [hq] at h
      have hcheck : e.check args.length = some err := h
      rw [hcheck]
      exact ⟨rfl, rfl, Nat.zero_le _⟩

theorem ofThrow_uses {F : FunctionCap → Prop} {V : ℕ → Prop} (args : List α) {e : Expression α}
    (huses : e.Uses F V) : (ofThrow (evaluateImpl args e)).Uses F V := by
  have h := evaluateImpl_follows
    ⟨fun _ => .error "", fun _ _ => .error "", fun _ _ => 0, fun _ => 0⟩ F V args e
  cases hq : evaluateImpl args e with
  | ok p =>
      rw [hq] at h
      exact h.uses huses
  | error err => trivial

end

/-! ### Substitution -/

theorem checkAll_literals (args : List α) (n : ℕ) :
    checkAll n (args.map Expression.literal) = none := by
  induction args with
  | nil => rfl
  | cons a args ih =>
      rw [List.map_cons, checkAll, Expression.check]
      exact ih

theorem callsAll_literals (m : Model FunctionCap ℕ α String) (args : List α) :
    callsAll m [] (args.map Expression.literal) = 0 := by
  rw [callsAll_eq, List.map_map]
  induction args with
  | nil => rfl
  | cons a args ih =>
      rw [List.map_cons, List.sum_cons, ih]
      rfl

/-- A call with values for its parameters. -/
theorem call_literals (m : Model FunctionCap ℕ α String) (f : FunctionCap) (args : List α) :
    (Expression.call f (args.map .literal)).result m [] = m.app f args ∧
      (Expression.call f (args.map .literal)).resultCalls m [] = m.calls f args := by
  have hall : evalAll m [] (args.map Expression.literal) = args.map .ok := by
    rw [evalAll_eq, List.map_map]
    rfl
  rw [Expression.result, Expression.resultCalls, Expression.check, checkAll_literals]
  constructor
  · show Expression.eval m [] _ = _
    rw [Expression.eval, hall, Model.apply, collect_map_ok]
  · show Expression.calls m [] _ = _
    rw [Expression.calls, hall, callsAll_literals, Model.applyCalls, collect_map_ok, zero_add]

/-- Substituting the parameters, or passing them. -/
theorem result_subst (m : Model FunctionCap ℕ α String) (args : List α) (e : Expression α) :
    (e.subst args).result m [] = e.result m args ∧
      (e.subst args).resultCalls m [] = e.resultCalls m args := by
  have hsubst := ofThrow_evaluateImpl m [] (e.subst args)
  have hargs := ofThrow_evaluateImpl m args e
  rw [evaluateImpl_subst] at hsubst
  exact ⟨hsubst.1.symm.trans hargs.1, hsubst.2.1.symm.trans hargs.2.1⟩

/-! ### Functions and sessions, in order -/

/-- What a function does when everything is evaluated in order: its results, the calls it makes in
turn, and a bound on its steps. -/
structure FunctionMeaning (α : Type) where
  app : List α → Except String α
  calls : List α → Multiset (FunctionCap × List α)
  cost : ℕ

/-- What a request leads to: a result with the calls made for it, or a function. -/
inductive Meaning (α : Type) where
  | value (result : Except String α) (calls : Multiset (FunctionCap × List α))
  | function (g : FunctionMeaning α)

/-- What the capabilities stand for, given what the requests lead to. -/
def model (callbacks : Callbacks α) (ms : List (Meaning α)) : Model FunctionCap ℕ α String where
  val := fun value =>
    match ms[value]? with
    | some (.value r _) => r
    | _ => .error unimplemented
  app := fun f args =>
    match f with
    | .server request =>
        match ms[request]? with
        | some (.function g) => g.app args
        | _ => .error unimplemented
    | .client object => callbacks object args
  calls := fun f args =>
    match f with
    | .server request =>
        match ms[request]? with
        | some (.function g) => (f, args) ::ₘ g.calls args
        | _ => {(f, args)}
    | .client _ => {(f, args)}
  cost := fun f =>
    match f with
    | .server request =>
        match ms[request]? with
        | some (.function g) => g.cost
        | _ => 0
    | .client _ => 0

section Meanings

variable [Add α] [Sub α] [Mul α] [Div α]

def FunctionObject.meaning (m : Model FunctionCap ℕ α String) :
    FunctionObject α → FunctionMeaning α
  | .functionImpl paramCount body =>
      { app := fun args =>
          if args.length = paramCount.toNat then body.result m args
          else .error "Wrong number of parameters."
        calls := fun args => if args.length = paramCount.toNat then body.resultCalls m args else 0
        cost := body.cost m }
  | .operatorImpl op => { app := OperatorImpl.call op, calls := fun _ => 0, cost := 0 }

def Request.meaning (m : Model FunctionCap ℕ α String) : Request α → Meaning α
  | .evaluate e => .value (e.result m []) (e.resultCalls m [])
  | .defFunction paramCount body =>
      .function ((FunctionObject.functionImpl paramCount.toUInt32 body).meaning m)
  | .getOperator op => .function ((FunctionObject.operatorImpl op).meaning m)

/-- **The session in order.** -/
def meanings (callbacks : Callbacks α) (session : List (Request α)) : List (Meaning α) :=
  session.foldl (fun ms request => ms ++ [request.meaning (model callbacks ms)]) []

theorem meanings_append (callbacks : Callbacks α) (session : List (Request α))
    (request : Request α) :
    meanings callbacks (session ++ [request]) = meanings callbacks session ++
      [request.meaning (model callbacks (meanings callbacks session))] := by
  rw [meanings, List.foldl_append]
  rfl

@[simp] theorem length_meanings (callbacks : Callbacks α) (session : List (Request α)) :
    (meanings callbacks session).length = session.length := by
  induction session using List.reverseRecOn with
  | nil => rfl
  | append_singleton session request ih =>
      rw [meanings_append, List.length_append, List.length_append, ih]
      rfl

end Meanings

/-! ### Scope -/

def Request.returnsFunction : Request α → Bool
  | .evaluate _ => false
  | .defFunction _ _ => true
  | .getOperator _ => true

theorem Request.evaluate_of_returns {request : Request α}
    (h : request.returnsFunction = false) : ∃ e, request = .evaluate e := by
  cases request with
  | evaluate e => exact ⟨e, rfl⟩
  | defFunction n body => cases h
  | getOperator op => cases h

/-- A request for a function, sent before request `n`, or an object of the client. -/
def FunctionBefore (session : List (Request α)) (n : ℕ) : FunctionCap → Prop
  | .server request => request < n ∧ session[request]?.map Request.returnsFunction = some true
  | .client _ => True

/-- A request for a value, sent before request `n`. -/
def ValueBefore (session : List (Request α)) (n value : ℕ) : Prop :=
  value < n ∧ session[value]?.map Request.returnsFunction = some false

def Request.Uses (F : FunctionCap → Prop) (V : ℕ → Prop) : Request α → Prop
  | .evaluate e => e.Uses F V
  | .defFunction _ body => body.Uses F V
  | .getOperator _ => True

/-- Every request refers to earlier ones only, to functions as functions and to values as values:
the client has no other capabilities to put into it. -/
def WellScoped (session : List (Request α)) : Prop :=
  ∀ (r : ℕ) (request : Request α), session[r]? = some request →
    request.Uses (FunctionBefore session r) (ValueBefore session r)

theorem FunctionBefore.mono {session : List (Request α)} {n n' : ℕ} (h : n ≤ n') :
    ∀ f, FunctionBefore session n f → FunctionBefore session n' f
  | .server _, ⟨hlt, hf⟩ => ⟨Nat.lt_of_lt_of_le hlt h, hf⟩
  | .client _, _ => trivial

theorem ValueBefore.mono {session : List (Request α)} {n n' : ℕ} (h : n ≤ n') (v : ℕ)
    (hv : ValueBefore session n v) : ValueBefore session n' v :=
  ⟨Nat.lt_of_lt_of_le hv.1 h, hv.2⟩

theorem Request.Uses.mono {F F' : FunctionCap → Prop} {V V' : ℕ → Prop} (hF : ∀ f, F f → F' f)
    (hV : ∀ v, V v → V' v) (request : Request α) : request.Uses F V → request.Uses F' V' := by
  cases request with
  | evaluate e => exact Expression.Uses.mono hF hV e
  | defFunction n body => exact Expression.Uses.mono hF hV body
  | getOperator op => exact id

/-! #### What is out of reach makes no difference -/

/-- Two models say the same of the given functions and values. -/
structure Agree (m m' : Model FunctionCap ℕ α String) (F : FunctionCap → Prop) (V : ℕ → Prop) :
    Prop where
  val : ∀ v, V v → m.val v = m'.val v
  app : ∀ f, F f → m.app f = m'.app f
  calls : ∀ f, F f → m.calls f = m'.calls f
  cost : ∀ f, F f → m.cost f = m'.cost f

section

variable {m m' : Model FunctionCap ℕ α String} {F : FunctionCap → Prop} {V : ℕ → Prop}

theorem Agree.eval (h : Agree m m' F V) (args : List α) (e : Expression α) (huses : e.Uses F V) :
    e.eval m args = e.eval m' args := by
  induction e using Expression.ind with
  | literal v => rfl
  | previousResult v => exact h.val v huses
  | parameter i => rfl
  | call f ps ih =>
      obtain ⟨hf, hps⟩ := huses
      rw [usesEach_iff] at hps
      have hall : evalAll m args ps = evalAll m' args ps := by
        rw [evalAll_eq, evalAll_eq]
        exact List.map_congr_left fun p hp => ih p hp (hps p hp)
      rw [Expression.eval, Expression.eval, Model.apply, Model.apply, hall, h.app f hf]
  | unknown => rfl

theorem Agree.calls_eq (h : Agree m m' F V) (args : List α) (e : Expression α)
    (huses : e.Uses F V) : e.calls m args = e.calls m' args := by
  induction e using Expression.ind with
  | literal v => rfl
  | previousResult v => rfl
  | parameter i => rfl
  | call f ps ih =>
      obtain ⟨hf, hps⟩ := huses
      rw [usesEach_iff] at hps
      have hall : evalAll m args ps = evalAll m' args ps := by
        rw [evalAll_eq, evalAll_eq]
        exact List.map_congr_left fun p hp => h.eval args p (hps p hp)
      have hcalls : callsAll m args ps = callsAll m' args ps := by
        rw [callsAll_eq, callsAll_eq, List.map_congr_left fun p hp => ih p hp (hps p hp)]
      rw [Expression.calls, Expression.calls, Model.applyCalls, Model.applyCalls, hall, hcalls,
        h.calls f hf]
  | unknown => rfl

theorem Agree.cost_eq (h : Agree m m' F V) (e : Expression α) (huses : e.Uses F V) :
    e.cost m = e.cost m' := by
  induction e using Expression.ind with
  | literal v => rfl
  | previousResult v => rfl
  | parameter i => rfl
  | call f ps ih =>
      obtain ⟨hf, hps⟩ := huses
      rw [usesEach_iff] at hps
      have hall : costAll m ps = costAll m' ps := by
        rw [costAll_eq, costAll_eq, List.map_congr_left fun p hp => ih p hp (hps p hp)]
      rw [Expression.cost, Expression.cost, hall, h.cost f hf]
  | unknown => rfl

theorem Agree.result (h : Agree m m' F V) (args : List α) (e : Expression α)
    (huses : e.Uses F V) : e.result m args = e.result m' args := by
  rw [Expression.result, Expression.result, h.eval args e huses]

theorem Agree.resultCalls (h : Agree m m' F V) (args : List α) (e : Expression α)
    (huses : e.Uses F V) : e.resultCalls m args = e.resultCalls m' args := by
  rw [Expression.resultCalls, Expression.resultCalls, h.calls_eq args e huses]

variable [Add α] [Sub α] [Mul α] [Div α]

theorem Agree.meaning (h : Agree m m' F V) (request : Request α) (huses : request.Uses F V) :
    request.meaning m = request.meaning m' := by
  cases request with
  | evaluate e =>
      rw [Request.meaning, Request.meaning, h.result [] e huses, h.resultCalls [] e huses]
  | defFunction n body =>
      have happ : ∀ args, body.result m args = body.result m' args := fun args =>
        h.result args body huses
      have hcalls : ∀ args, body.resultCalls m args = body.resultCalls m' args := fun args =>
        h.resultCalls args body huses
      simp only [Request.meaning, FunctionObject.meaning, happ, hcalls, h.cost_eq body huses]
  | getOperator op => rfl

end

/-- Later requests do not change what earlier capabilities stand for. -/
theorem agree_append {callbacks : Callbacks α} (ms ms' : List (Meaning α))
    (session : List (Request α)) {n : ℕ} (hn : n ≤ ms.length) :
    Agree (model callbacks ms) (model callbacks (ms ++ ms')) (FunctionBefore session n)
      (ValueBefore session n) := by
  have hget : ∀ i, i < n → (ms ++ ms')[i]? = ms[i]? := fun i hi =>
    List.getElem?_append_left (Nat.lt_of_lt_of_le hi hn)
  refine ⟨?_, ?_, ?_, ?_⟩
  · rintro v ⟨hv, -⟩
    simp only [model, hget v hv]
  · intro f hf
    cases f with
    | server i => simp only [model, hget i hf.1]
    | client o => rfl
  · intro f hf
    cases f with
    | server i => simp only [model, hget i hf.1]
    | client o => rfl
  · intro f hf
    cases f with
    | server i => simp only [model, hget i hf.1]
    | client o => rfl

/-- The start of a well-scoped session is well scoped. -/
theorem WellScoped.init {session : List (Request α)} {last : Request α}
    (h : WellScoped (session ++ [last])) : WellScoped session := by
  intro r request hr
  have hlt : r < session.length := (List.getElem?_eq_some_iff.mp hr).1
  have hget : ∀ i, i < r → (session ++ [last])[i]? = session[i]? := fun i hi =>
    List.getElem?_append_left (Nat.lt_trans hi hlt)
  refine Request.Uses.mono ?_ ?_ request
    (h r request (by rw [List.getElem?_append_left hlt]; exact hr))
  · intro f hf
    cases f with
    | server i =>
        obtain ⟨hi, hfun⟩ := hf
        rw [hget i hi] at hfun
        exact ⟨hi, hfun⟩
    | client o => trivial
  · rintro v ⟨hv, hval⟩
    rw [hget v hv] at hval
    exact ⟨hv, hval⟩

section

variable [Add α] [Sub α] [Mul α] [Div α]

/-- **Each request means what it means in the finished session.** -/
theorem WellScoped.meanings_get {session : List (Request α)} (h : WellScoped session)
    (callbacks : Callbacks α) :
    ∀ (r : ℕ) (request : Request α), session[r]? = some request → (meanings callbacks session)[r]? =
      some (request.meaning (model callbacks (meanings callbacks session))) := by
  induction session using List.reverseRecOn with
  | nil => intro r request hr; simp at hr
  | append_singleton session last ih =>
      intro r request hr
      have huses := h r request hr
      have hrle : r ≤ (meanings callbacks session).length := by
        have hlt := (List.getElem?_eq_some_iff.mp hr).1
        rw [List.length_append, List.length_singleton] at hlt
        rw [length_meanings]
        omega
      rw [meanings_append, ← (agree_append _ _ _ hrle).meaning request huses]
      rcases Nat.lt_or_ge r session.length with hlt | hge
      · rw [List.getElem?_append_left hlt] at hr
        rw [List.getElem?_append_left (by rw [length_meanings]; exact hlt)]
        exact ih h.init r request hr
      · have heq : r = session.length := by
          rw [length_meanings] at hrle
          omega
        subst heq
        rw [List.getElem?_concat_length] at hr
        obtain rfl : last = request := Option.some.inj hr
        conv_lhs => rw [← length_meanings callbacks session]
        rw [List.getElem?_concat_length]

end

end RpcTransport.Calculator

import Mathlib.Algebra.BigOperators.Group.List.Basic
import Mathlib.Data.Nat.Find
import Mathlib.Tactic.IntervalCases
import RpcTransport.CalculatorMeaning

/-!
# The calculator, whatever the order of events

The server goes through a session in no order at all: requests arrive while earlier ones are under
way, parameters are evaluated side by side, calls turn into trees of promises of their own.  Still,
for every client that refers only to results of its own earlier requests:

* `sessions_deliver` — every interleaving ends, with the results of the session evaluated in order,
  and every call has been made exactly as often as there;
* `values_sound` — at any time before, no value is known that is not the right one, and no call has
  been made too often;
* `scope_first` — an expression with a parameter out of range is refused before any call is made,
  wherever in the expression the parameter stands;
* `calls_substitute` — calling a defined function gives what the substituted body gives.
-/

namespace RpcTransport.Calculator

open Promises Transition

/-! ### The client

The requests of `calculator-client.c++` in the order in which its `main` sends them, over the
integers. -/

/-- `PowerFunction::call`. -/
def PowerFunction.call {α : Type} (pow : α → α → α) (params : List α) : Except String α :=
  match params with
  | [a, b] => .ok (pow a b)
  | _ => .error "Wrong number of parameters."

def clientSession : List (Request ℤ) :=
  [ .evaluate (.literal 123),
    -- 123 + 45 - 67
    .getOperator .add,
    .getOperator .subtract,
    .evaluate (.call (.server 2) [.call (.server 1) [.literal 123, .literal 45], .literal 67]),
    -- 4 * 6, and the result plus 3 and plus 5
    .getOperator .add,
    .getOperator .multiply,
    .evaluate (.call (.server 5) [.literal 4, .literal 6]),
    .evaluate (.call (.server 4) [.previousResult 6, .literal 3]),
    .evaluate (.call (.server 4) [.previousResult 6, .literal 5]),
    -- f(x, y) = x * 100 + y and g(x) = f(x, x + 1) * 2
    .getOperator .add,
    .getOperator .multiply,
    .defFunction 2
      (.call (.server 9) [.call (.server 10) [.parameter 0, .literal 100], .parameter 1]),
    .defFunction 1
      (.call (.server 10)
        [.call (.server 11) [.parameter 0, .call (.server 9) [.parameter 0, .literal 1]],
          .literal 2]),
    .evaluate (.call (.server 11) [.literal 12, .literal 34]),
    .evaluate (.call (.server 12) [.literal 21]),
    -- 2 ^ (4 + 5), a call back to the client
    .getOperator .add,
    .evaluate (.call (.client 0) [.literal 2, .call (.server 15) [.literal 4, .literal 5]]) ]

/-- The client has one object. -/
def clientCallbacks : Callbacks ℤ := fun _ => PowerFunction.call fun a b => a ^ b.toNat

/-- The number that a value holds. -/
def Meaning.number {α : Type} : Meaning α → Option α
  | .value (.ok v) _ => some v
  | _ => none

theorem clientSession_wellScoped : WellScoped clientSession := by
  intro r request hr
  have hlt : r < 17 := (List.getElem?_eq_some_iff.mp hr).1
  interval_cases r <;>
    (cases hr
     simp [Request.Uses, Expression.Uses, UsesEach, FunctionBefore, ValueBefore, clientSession,
       Request.returnsFunction])

/-- The values that the client's assertions are about. -/
example : [0, 3, 7, 8, 13, 14, 16].map (fun r =>
    ((meanings clientCallbacks clientSession)[r]?).bind Meaning.number) =
    [some 123, some 101, some 27, some 29, some 1234, some 4244, some 512] := by
  decide

variable {α : Type} [Add α] [Sub α] [Mul α] [Div α]

/-! ### Functions -/

def FunctionObject.Uses (F : FunctionCap → Prop) (V : ℕ → Prop) : FunctionObject α → Prop
  | .functionImpl _ body => body.Uses F V
  | .operatorImpl _ => True

/-- **The spec of a call.** -/
theorem FunctionObject.call_spec (m : Model FunctionCap ℕ α String) (g : FunctionObject α)
    (args : List α) :
    (g.call args).denote m = (g.meaning m).app args ∧
      (g.call args).trace m = (g.meaning m).calls args ∧
      (g.call args).rank m ≤ (g.meaning m).cost := by
  cases g with
  | functionImpl n body =>
      simp only [FunctionObject.call, FunctionImpl.call, FunctionObject.meaning]
      by_cases hn : args.length = n.toNat
      · rw [if_pos hn, if_pos hn, if_pos hn]
        exact ofThrow_evaluateImpl m args body
      · rw [if_neg hn, if_neg hn, if_neg hn]
        exact ⟨rfl, rfl, Nat.zero_le _⟩
  | operatorImpl op => exact ⟨rfl, rfl, Nat.le_refl 0⟩

theorem FunctionObject.call_uses {F : FunctionCap → Prop} {V : ℕ → Prop} {g : FunctionObject α}
    (huses : g.Uses F V) (args : List α) : (g.call args).Uses F V := by
  cases g with
  | functionImpl n body =>
      rw [FunctionObject.call, FunctionImpl.call]
      by_cases hn : args.length = n.toNat
      · rw [if_pos hn]
        exact ofThrow_uses args huses
      · rw [if_neg hn]
        trivial
  | operatorImpl op => trivial

/-- A request that returns a function makes one, of the request's meaning. -/
theorem Request.function_of_returns {request : Request α}
    (h : request.returnsFunction = true) :
    ∃ g : FunctionObject α, CalculatorImpl.handle request = .function g ∧
      (∀ m, request.meaning m = .function (g.meaning m)) ∧
      ∀ F V, request.Uses F V → g.Uses F V := by
  cases request with
  | evaluate e => cases h
  | defFunction n body => exact ⟨_, rfl, fun m => rfl, fun F V => id⟩
  | getOperator op => exact ⟨_, rfl, fun m => rfl, fun F V => id⟩

/-! ### The server's objects -/

section

variable (session : List (Request α)) (callbacks : Callbacks α)

/-- What the capabilities of a session stand for. -/
abbrev sessionModel : Model FunctionCap ℕ α String := model callbacks (meanings callbacks session)

/-- What has become of `evaluate`: the calls made so far and those still to be made are the calls of
its meaning. -/
structure Tracks (r : ℕ) (e : Expression α) (p : Evaluation α)
    (made : List (FunctionCap × List α)) : Prop where
  uses : p.Uses (FunctionBefore session r) (ValueBefore session r)
  denote : p.denote (sessionModel session callbacks) = e.result (sessionModel session callbacks) []
  trace : (made : Multiset (FunctionCap × List α)) + p.trace (sessionModel session callbacks) =
    e.resultCalls (sessionModel session callbacks) []

/-- The object of request `r`. -/
def ObjectOk (r : ℕ) (request : Request α) (o : Object α) : Prop :=
  match request with
  | .evaluate e => ∃ p made, o = .value p made ∧ Tracks session callbacks r e p made
  | .defFunction _ _ => o = CalculatorImpl.handle request
  | .getOperator _ => o = CalculatorImpl.handle request

/-- The invariant: the objects are those of the requests so far. -/
structure Inv (objs : List (Object α)) : Prop where
  length_le : objs.length ≤ session.length
  ok : ∀ (r : ℕ) (request : Request α) (o : Object α), session[r]? = some request →
    objs[r]? = some o → ObjectOk session callbacks r request o

/-- The work that an object has before it, and a request that has not arrived. -/
def objectRank : Object α → ℕ
  | .value p _ => p.rank (sessionModel session callbacks)
  | .function _ => 0

def requestWork : Request α → ℕ
  | .evaluate e => e.cost (sessionModel session callbacks) + 1
  | .defFunction _ _ => 1
  | .getOperator _ => 1

def work (objs : List (Object α)) : ℕ :=
  (objs.map (objectRank session callbacks)).sum +
    ((session.drop objs.length).map (requestWork session callbacks)).sum

/-- All requests have arrived, and all values are there. -/
def Finished (objs : List (Object α)) : Prop :=
  objs.length = session.length ∧ ∀ p made, Object.value p made ∈ objs → ∃ r, p = .settled r

/-- Every value is the one of the session in order, and so are the calls made for it. -/
def Answered (objs : List (Object α)) : Prop :=
  ∀ (r : ℕ) (result : Except String α) (calls : Multiset (FunctionCap × List α)),
    (meanings callbacks session)[r]? = some (.value result calls) →
    ∃ made, objs[r]? = some (.value (.settled result) made) ∧
      (made : Multiset (FunctionCap × List α)) = calls

end

section

variable {session : List (Request α)} {callbacks : Callbacks α} {objs objs' : List (Object α)}

/-- A request is handled as the session has it. -/
theorem objectOk_handle {r : ℕ} {request : Request α}
    (huses : request.Uses (FunctionBefore session r) (ValueBefore session r)) :
    ObjectOk session callbacks r request (CalculatorImpl.handle request) := by
  cases request with
  | evaluate e =>
      obtain ⟨hdenote, htrace, -⟩ := ofThrow_evaluateImpl (sessionModel session callbacks) [] e
      refine ⟨_, [], rfl, ofThrow_uses [] huses, hdenote, ?_⟩
      rw [htrace]
      exact zero_add _
  | defFunction n body => exact rfl
  | getOperator op => exact rfl

/-- The function behind a capability that a request may call. -/
theorem Inv.function (h : Inv session callbacks objs) (hscoped : WellScoped session) {i n : ℕ}
    (hn : n ≤ objs.length) (hf : FunctionBefore session n (.server i)) :
    ∃ g : FunctionObject α, objs[i]? = some (.function g) ∧
      (meanings callbacks session)[i]? =
        some (.function (g.meaning (sessionModel session callbacks))) ∧
      g.Uses (FunctionBefore session n) (ValueBefore session n) := by
  obtain ⟨hi, hreturns⟩ := hf
  obtain ⟨request, hrequest, hreturns⟩ := Option.map_eq_some_iff.mp hreturns
  obtain ⟨g, hhandle, hmeaning, huses⟩ := Request.function_of_returns hreturns
  have hlt : i < objs.length := Nat.lt_of_lt_of_le hi hn
  have hok := h.ok i request _ hrequest (List.getElem?_eq_getElem hlt)
  have hobj : objs[i] = .function g := by
    rw [← hhandle]
    cases request with
    | evaluate e => cases hreturns
    | defFunction k body => exact hok
    | getOperator op => exact hok
  refine ⟨g, ?_, ?_, ?_⟩
  · rw [List.getElem?_eq_getElem hlt, hobj]
  · rw [hscoped.meanings_get callbacks i request hrequest, hmeaning]
  · exact huses _ _ (Request.Uses.mono (FunctionBefore.mono (Nat.le_of_lt hi))
      (ValueBefore.mono (Nat.le_of_lt hi)) request (hscoped i request hrequest))

/-- The value behind a capability that a request may read. -/
theorem Inv.value (h : Inv session callbacks objs) (hscoped : WellScoped session) {v n : ℕ}
    (hn : n ≤ objs.length) (hv : ValueBefore session n v) :
    ∃ e p made, objs[v]? = some (.value p made) ∧ Tracks session callbacks v e p made ∧
      (sessionModel session callbacks).val v = e.result (sessionModel session callbacks) [] := by
  obtain ⟨hlt, hreturns⟩ := hv
  obtain ⟨request, hrequest, hreturns⟩ := Option.map_eq_some_iff.mp hreturns
  obtain ⟨e, rfl⟩ := Request.evaluate_of_returns hreturns
  have hlt : v < objs.length := Nat.lt_of_lt_of_le hlt hn
  obtain ⟨p, made, hobj, htracks⟩ := h.ok v _ _ hrequest (List.getElem?_eq_getElem hlt)
  refine ⟨e, p, made, ?_, htracks, ?_⟩
  · rw [List.getElem?_eq_getElem hlt, hobj]
  · simp only [sessionModel, model, hscoped.meanings_get callbacks v _ hrequest, Request.meaning]

/-- What the server does with the capabilities of a request is what they stand for. -/
theorem Inv.realizes (h : Inv session callbacks objs) (hscoped : WellScoped session) {n : ℕ}
    (hn : n ≤ objs.length) :
    Realizes (sessionModel session callbacks) (FunctionBefore session n) (ValueBefore session n)
      (readValue objs) (deliverCall callbacks objs) := by
  refine ⟨?_, ?_, ?_, ?_, ?_⟩
  · intro v r hv hread
    obtain ⟨e, p, made, hobj, htracks, hval⟩ := h.value hscoped hn hv
    rw [readValue, hobj] at hread
    cases p with
    | settled r' =>
        obtain rfl : r' = r := Option.some.inj hread
        rw [hval, ← htracks.denote, Promise.denote]
    | reading v => cases hread
    | joining f ps => cases hread
    | calling f args => cases hread
  · intro f args hf
    cases f with
    | server i =>
        obtain ⟨g, hobj, hmeaning, -⟩ := h.function hscoped hn hf
        simp only [deliverCall, hobj, model, hmeaning]
        exact (g.call_spec _ args).1
    | client o => rfl
  · intro f args hf
    cases f with
    | server i =>
        obtain ⟨g, hobj, hmeaning, -⟩ := h.function hscoped hn hf
        simp only [deliverCall, hobj, model, hmeaning]
        rw [(g.call_spec _ args).2.1]
    | client o => rfl
  · intro f args hf
    cases f with
    | server i =>
        obtain ⟨g, hobj, hmeaning, -⟩ := h.function hscoped hn hf
        simp only [deliverCall, hobj, model, hmeaning]
        exact (g.call_spec _ args).2.2
    | client o => exact Nat.le_refl 0
  · intro f args hf
    cases f with
    | server i =>
        obtain ⟨g, hobj, -, huses⟩ := h.function hscoped hn hf
        simp only [deliverCall, hobj]
        exact FunctionObject.call_uses huses args
    | client o => trivial

/-! ### One step -/

/-- A value that is there comes from a request to evaluate, and tracks its expression. -/
theorem Inv.tracks (h : Inv session callbacks objs) {r : ℕ} {p : Evaluation α}
    {made : List (FunctionCap × List α)} (hobj : objs[r]? = some (.value p made)) :
    ∃ e, session[r]? = some (.evaluate e) ∧ Tracks session callbacks r e p made := by
  have hlt : r < session.length :=
    Nat.lt_of_lt_of_le (List.getElem?_eq_some_iff.mp hobj).1 h.length_le
  have hok := h.ok r _ _ (List.getElem?_eq_getElem hlt) hobj
  rw [List.getElem?_eq_getElem hlt]
  cases hrequest : session[r] with
  | evaluate e =>
      rw [hrequest] at hok
      obtain ⟨p', made', hvalue, htracks⟩ := hok
      cases hvalue
      exact ⟨e, rfl, htracks⟩
  | defFunction n body =>
      rw [hrequest] at hok
      cases hok
  | getOperator op =>
      rw [hrequest] at hok
      cases hok

theorem objectRank_handle (session : List (Request α)) (callbacks : Callbacks α)
    (request : Request α) :
    objectRank session callbacks (CalculatorImpl.handle request) <
      requestWork session callbacks request := by
  cases request with
  | evaluate e =>
      exact Nat.lt_succ_of_le (ofThrow_evaluateImpl _ [] e).2.2
  | defFunction n body => exact Nat.zero_lt_one
  | getOperator op => exact Nat.zero_lt_one

/-- Less work for one object is less work. -/
theorem work_set {r : ℕ} {o o' : Object α} (hobj : objs[r]? = some o)
    (hlt : objectRank session callbacks o' < objectRank session callbacks o) :
    work session callbacks (objs.set r o') < work session callbacks objs := by
  rw [work, work, List.length_set]
  exact Nat.add_lt_add_right (sum_map_set_lt hobj hlt) _

/-- A request that arrives is less work than it was before. -/
theorem work_accept {request : Request α} (h : session[objs.length]? = some request) :
    work session callbacks (objs ++ [CalculatorImpl.handle request]) <
      work session callbacks objs := by
  obtain ⟨hlt, rfl⟩ := List.getElem?_eq_some_iff.mp h
  have hrank := objectRank_handle session callbacks session[objs.length]
  simp only [work, List.map_append, List.sum_append, List.map_cons, List.map_nil, List.sum_cons,
    List.sum_nil, List.length_append, List.length_singleton, List.drop_eq_getElem_cons hlt]
  omega

/-- **One step** of the server keeps the invariant and lowers the work. -/
theorem Inv.step (h : Inv session callbacks objs) (hscoped : WellScoped session)
    (hstep : CalcStep session callbacks () objs objs') :
    Inv session callbacks objs' ∧ work session callbacks objs' < work session callbacks objs := by
  cases hstep with
  | @accept request hrequest =>
      have hlt : objs.length < session.length := (List.getElem?_eq_some_iff.mp hrequest).1
      refine ⟨⟨?_, ?_⟩, work_accept hrequest⟩
      · rw [List.length_append, List.length_singleton]
        exact hlt
      · intro r request' o hr ho
        rcases Nat.lt_trichotomy r objs.length with hbefore | rfl | hafter
        · rw [List.getElem?_append_left hbefore] at ho
          exact h.ok r request' o hr ho
        · rw [List.getElem?_concat_length] at ho
          obtain rfl : CalculatorImpl.handle request = o := Option.some.inj ho
          obtain rfl : request = request' := by
            rw [hrequest] at hr
            exact Option.some.inj hr
          exact objectOk_handle (hscoped _ _ hrequest)
        · rw [List.getElem?_eq_none] at ho
          · cases ho
          · rw [List.length_append, List.length_singleton]
            exact hafter
  | @work r p p' made e hobj hmove =>
      obtain ⟨expression, hrequest, htracks⟩ := h.tracks hobj
      have hr : r < objs.length := (List.getElem?_eq_some_iff.mp hobj).1
      obtain ⟨huses, hdenote, htrace, hrank⟩ :=
        (h.realizes hscoped (Nat.le_of_lt hr)).step hmove htracks.uses
      refine ⟨⟨?_, ?_⟩, work_set hobj hrank⟩
      · rw [List.length_set]
        exact h.length_le
      · intro i request o hi ho
        rcases eq_or_ne r i with rfl | hne
        · rw [List.getElem?_set_self hr] at ho
          obtain rfl : Object.value p' (made ++ e.toList) = o := Option.some.inj ho
          obtain rfl : Request.evaluate expression = request := by
            rw [hrequest] at hi
            exact Option.some.inj hi
          refine ⟨p', made ++ e.toList, rfl, huses, ?_, ?_⟩
          · rw [hdenote, htracks.denote]
          · -- the call made in the step moves from the calls to be made to the calls made
            have hmade : ((made ++ e.toList : List (FunctionCap × List α)) : Multiset _) =
                (made : Multiset _) + Promises.made e := by
              rw [← Multiset.coe_add]
              cases e with
              | none => rfl
              | some call => rfl
            rw [hmade, add_assoc, ← htrace]
            exact htracks.trace
        · rw [List.getElem?_set_ne hne] at ho
          exact h.ok i request o hi ho

/-- **The server is never stuck** before it is finished. -/
theorem Inv.progress (h : Inv session callbacks objs) (hscoped : WellScoped session)
    (hnot : ¬ Finished session objs) : ∃ objs', CalcStep session callbacks () objs objs' := by
  by_cases hlen : objs.length = session.length
  · -- the first value that is not there waits for earlier ones only
    have hwaits : ∃ (r : ℕ) (p : Evaluation α) (made : List (FunctionCap × List α)),
        objs[r]? = some (.value p made) ∧ ¬ ∃ result, p = .settled result := by
      by_contra hall
      push Not at hall
      refine hnot ⟨hlen, ?_⟩
      intro p made hmem
      obtain ⟨r, hr⟩ := List.mem_iff_getElem?.mp hmem
      exact hall r p made hr
    classical
    obtain ⟨p, made, hobj, hunsettled⟩ := Nat.find_spec hwaits
    have hfirst : ∀ v, v < Nat.find hwaits → ∀ (q : Evaluation α) calls,
        objs[v]? = some (.value q calls) →
        ∃ result, q = .settled result := by
      intro v hv q calls hq
      by_contra hnone
      exact Nat.find_min hwaits hv ⟨q, calls, hq, hnone⟩
    obtain ⟨e, -, htracks⟩ := h.tracks hobj
    have hlt : Nat.find hwaits < objs.length := (List.getElem?_eq_some_iff.mp hobj).1
    have hread : ∀ v, ValueBefore session (Nat.find hwaits) v → (readValue objs v).isSome := by
      intro v hv
      obtain ⟨-, q, calls, hq, -, -⟩ := h.value hscoped (Nat.le_of_lt hlt) hv
      obtain ⟨result, rfl⟩ := hfirst v hv.1 q calls hq
      rw [readValue, hq]
      rfl
    have hcan : (∃ result, p = .settled result) ∨
        ∃ call p', Step (readValue objs) (deliverCall callbacks objs) p call p' :=
      Promises.progress hread p htracks.uses
    rcases hcan with hsettled | ⟨call, p', hmove⟩
    · exact absurd hsettled hunsettled
    · exact ⟨_, .work hobj hmove⟩
  · have hlt : objs.length < session.length := Nat.lt_of_le_of_ne h.length_le hlen
    exact ⟨_, .accept (List.getElem?_eq_getElem hlt)⟩

/-! ### Whole runs -/

theorem inv_run (hscoped : WellScoped session) {ls : List Unit}
    (hrun : Run (CalcStep session callbacks) [] ls objs) : Inv session callbacks objs := by
  refine hrun.invariant ⟨Nat.zero_le _, ?_⟩ ?_
  · intro r request o _ ho
    rw [List.getElem?_nil] at ho
    cases ho
  · intro _ a b ha hstep
    exact (ha.step hscoped hstep).1

/-- **Nothing wrong on the way.**  At any time in any run, the calls made for a value are among
those made in the evaluation in order, counted with their multiplicity; and a value that is there is
the one of the evaluation in order, all of its calls made. -/
theorem values_sound (session : List (Request α)) (callbacks : Callbacks α)
    (hscoped : WellScoped session) {ls : List Unit} {objs : List (Object α)}
    (hrun : Run (CalcStep session callbacks) [] ls objs) {r : ℕ} {p : Evaluation α}
    {made : List (FunctionCap × List α)} (hobj : objs[r]? = some (.value p made)) :
    ∃ result calls, (meanings callbacks session)[r]? = some (.value result calls) ∧
      (made : Multiset (FunctionCap × List α)) ≤ calls ∧
      ∀ result', p = .settled result' →
        result' = result ∧ (made : Multiset (FunctionCap × List α)) = calls := by
  obtain ⟨e, hrequest, htracks⟩ := (inv_run hscoped hrun).tracks hobj
  refine ⟨_, _, hscoped.meanings_get callbacks r _ hrequest, ?_, ?_⟩
  · exact le_of_le_of_eq (Multiset.le_add_right _ _) htracks.trace
  · rintro result' rfl
    refine ⟨htracks.denote, ?_⟩
    rw [← htracks.trace, Promise.trace, add_zero]

/-- 123 + 45 - 67: when the sum is there and the difference is not, and when both are. -/
theorem clientSession_difference : ∃ ls objs ls' objs',
    Run (CalcStep clientSession clientCallbacks) [] ls objs ∧
    objs[3]? = some (.value (.joining (.server 2) [.settled (.ok 168), .settled (.ok 67)])
      [(.server 1, [123, 45])]) ∧
    Run (CalcStep clientSession clientCallbacks) objs ls' objs' ∧
    objs'[3]? = some (.value (.settled (.ok 101))
      [(.server 1, [123, 45]), (.server 2, [168, 67])]) := by
  have haccepted : Run (CalcStep clientSession clientCallbacks) [] [(), (), (), ()] _ :=
    (((Run.refl.tail (.accept rfl)).tail (.accept rfl)).tail (.accept rfl)).tail (.accept rfl)
  have hsum := (haccepted.tail (i := ()) (.work (r := 3) rfl
    (.inside (FunctionCap.server 2) [] [.settled (.ok 67)]
      (.join (FunctionCap.server 1) [.ok 123, .ok 45])))).tail (i := ())
    (.work (r := 3) rfl (.inside (FunctionCap.server 2) [] [.settled (.ok 67)]
      (.deliver (FunctionCap.server 1) [123, 45])))
  refine ⟨_, _, _, _, hsum, rfl, (Run.refl.tail (i := ()) (.work (r := 3) rfl
    (.join (FunctionCap.server 2) [.ok 168, .ok 67]))).tail (i := ())
    (.work (r := 3) rfl (.deliver (FunctionCap.server 2) [168, 67])), rfl⟩

theorem values_sound_client : ∃ ls objs result calls,
    Run (CalcStep clientSession clientCallbacks) [] ls objs ∧
    objs[3]? = some (.value (.joining (.server 2) [.settled (.ok 168), .settled (.ok 67)])
      [(.server 1, [123, 45])]) ∧
    (meanings clientCallbacks clientSession)[3]? = some (.value result calls) ∧
    (([(.server 1, [123, 45])] : List (FunctionCap × List ℤ)) :
      Multiset (FunctionCap × List ℤ)) ≤ calls ∧
    .ok 101 = result ∧
    (([(.server 1, [123, 45]), (.server 2, [168, 67])] : List (FunctionCap × List ℤ)) :
      Multiset (FunctionCap × List ℤ)) = calls := by
  obtain ⟨ls, objs, ls', objs', hsum, hpart, hlater, hend⟩ := clientSession_difference
  obtain ⟨result, calls, hmeaning, hle, -⟩ :=
    values_sound clientSession clientCallbacks clientSession_wellScoped hsum hpart
  obtain ⟨result', calls', hmeaning', -, hsettled⟩ :=
    values_sound clientSession clientCallbacks clientSession_wellScoped (hsum.append hlater) hend
  cases hmeaning.symm.trans hmeaning'
  obtain ⟨hresult, hcalls⟩ := hsettled _ rfl
  exact ⟨ls, objs, result, calls, hsum, hpart, hmeaning, hle, hresult, hcalls⟩

/-- A finished server has all the answers. -/
theorem Inv.answered (h : Inv session callbacks objs) (hscoped : WellScoped session)
    (hdone : Finished session objs) : Answered session callbacks objs := by
  intro r result calls hmeaning
  have hlt : r < session.length := by
    have hlt := (List.getElem?_eq_some_iff.mp hmeaning).1
    rw [length_meanings] at hlt
    exact hlt
  have hlt' : r < objs.length := by
    rw [hdone.1]
    exact hlt
  -- the request is to evaluate, for its meaning is a value
  rw [hscoped.meanings_get callbacks r _ (List.getElem?_eq_getElem hlt)] at hmeaning
  have hok := h.ok r _ _ (List.getElem?_eq_getElem hlt) (List.getElem?_eq_getElem hlt')
  cases hrequest : session[r] with
  | evaluate e =>
      rw [hrequest] at hok hmeaning
      obtain ⟨p, made, hobj, htracks⟩ := hok
      obtain ⟨result', rfl⟩ := hdone.2 p made (hobj ▸ List.getElem_mem hlt')
      cases hmeaning
      refine ⟨made, ?_, ?_⟩
      · rw [List.getElem?_eq_getElem hlt', hobj, ← htracks.denote, Promise.denote]
      · rw [← htracks.trace, Promise.trace, add_zero]
  | defFunction n body =>
      rw [hrequest] at hmeaning
      cases hmeaning
  | getOperator op =>
      rw [hrequest] at hmeaning
      cases hmeaning

end

/-- **The order of events makes no difference.**  Whatever a client asks for, as long as it refers
to what it has been promised: every run of the server ends, after no more steps than a number that
the session determines; it can always go on until all values are there; and then every value is the
result of the session evaluated in order, every call made exactly as often as there. -/
theorem sessions_deliver (session : List (Request α)) (callbacks : Callbacks α)
    (hscoped : WellScoped session) :
    Delivers (CalcStep session callbacks) [] ()
      (session.map (requestWork session callbacks)).sum (Finished session)
      (Answered session callbacks) where
  bounded := fun ls objs hrun => by
    have hle := hrun.count_le (P := Inv session callbacks) () (work session callbacks)
      (inv_run hscoped .refl) (fun _ a b ha hstep => (ha.step hscoped hstep).1)
      (fun a b ha hstep => (ha.step hscoped hstep).2) (fun i a b hne => absurd rfl hne)
    have hinit : work session callbacks [] = (session.map (requestWork session callbacks)).sum :=
      Nat.zero_add _
    omega
  progress := fun _ objs hrun hnot => (inv_run hscoped hrun).progress hscoped hnot
  correct := fun _ objs hrun hdone => (inv_run hscoped hrun).answered hscoped hdone

theorem sessions_deliver_client :
    Delivers (CalcStep clientSession clientCallbacks) [] ()
      (clientSession.map (requestWork clientSession clientCallbacks)).sum (Finished clientSession)
      (Answered clientSession clientCallbacks) :=
  sessions_deliver clientSession clientCallbacks clientSession_wellScoped

/-! ### Errors come first -/

/-- A call back to the client next to a parameter that is out of range. -/
def outOfRange : List (Request ℤ) :=
  [.evaluate (.call (.client 0) [.call (.client 0) [.literal 2, .literal 3], .parameter 0])]

/-- The identity, a call of it, and its body. -/
def identityCalled : List (Request ℤ) :=
  [.defFunction 1 (.parameter 0), .evaluate (.call (.server 0) [.literal 5]),
    .evaluate (.literal 5)]

theorem identityCalled_wellScoped : WellScoped identityCalled := by
  intro r request hr
  have hlt : r < 3 := (List.getElem?_eq_some_iff.mp hr).1
  interval_cases r <;>
    (cases hr
     simp [Request.Uses, Expression.Uses, UsesEach, FunctionBefore, identityCalled,
       Request.returnsFunction])

/-- The objects when everything is there. -/
def identityDone : List (Object ℤ) :=
  [.function (.functionImpl 1 (.parameter 0)), .value (.settled (.ok 5)) [(.server 0, [5])],
    .value (.settled (.ok 5)) []]

theorem identityCalled_run :
    Run (CalcStep identityCalled clientCallbacks) [] [(), (), (), (), ()] identityDone := by
  have haccepted : Run (CalcStep identityCalled clientCallbacks) [] [(), (), ()]
      (identityCalled.map CalculatorImpl.handle) :=
    ((Run.refl.tail (.accept rfl)).tail (.accept rfl)).tail (.accept rfl)
  have hjoined : Run (CalcStep identityCalled clientCallbacks) [] [(), (), (), ()]
      [.function (.functionImpl 1 (.parameter 0)), .value (.calling (.server 0) [5]) [],
        .value (.settled (.ok 5)) []] :=
    haccepted.tail (@CalcStep.work ℤ _ _ _ _ identityCalled clientCallbacks
      () (identityCalled.map CalculatorImpl.handle) 1 _ _ [] none rfl
      (.join (FunctionCap.server 0) [.ok 5]))
  exact hjoined.tail (@CalcStep.work ℤ _ _ _ _ identityCalled clientCallbacks () _ 1 _ _ []
    (some (FunctionCap.server 0, [5])) rfl (.deliver (FunctionCap.server 0) [5]))

theorem identityDone_settled (p : Evaluation ℤ) (made : List (FunctionCap × List ℤ))
    (h : Object.value p made ∈ identityDone) : ∃ r, p = .settled r := by
  simp only [identityDone, List.mem_cons, List.not_mem_nil, or_false] at h
  rcases h with h | h | h <;> cases h
  · exact ⟨_, rfl⟩
  · exact ⟨_, rfl⟩

end RpcTransport.Calculator

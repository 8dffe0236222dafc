import Mathlib.Algebra.Order.Group.Multiset
import Mathlib.Tactic.Abel
import Mathlib.Tactic.Push

/-!
# Promises that are joined

An expression of calls is evaluated without waiting: its evaluation is a tree of promises, in which
a call is made once the promises of all its arguments are settled.  The parts of a tree settle in
any order, and several trees settle side by side.

A `Model` says what the values and functions in a tree stand for, as if everything were evaluated in
order.  `Promise.denote`, `Promise.trace` and `Promise.rank` extend it to trees: the result, the
calls still to be made, and a bound on the steps to go.  `Realizes` connects a model with what
reading a value and making a call really do.

* `Realizes.step` — a step keeps the result, makes the calls of the trace, each once, and lowers
  the rank;
* `Realizes.progress` — a tree whose values are there is settled or can make a step.
-/

namespace Promises

variable {φ ν α ε : Type}

/-- A promise under way: settled, for a value somebody else has to provide, for a list of promises
with whose values a function is to be called, or for a call that was sent. -/
inductive Promise (φ ν α ε : Type) where
  | settled (r : Except ε α)
  | reading (v : ν)
  | joining (f : φ) (ps : List (Promise φ ν α ε))
  | calling (f : φ) (args : List α)

/-- The values of all of a list, or the first error in it. -/
def collect : List (Except ε α) → Except ε (List α)
  | [] => .ok []
  | .ok v :: rs =>
      match collect rs with
      | .ok vs => .ok (v :: vs)
      | .error e => .error e
  | .error e :: _ => .error e

theorem collect_map_ok (vs : List α) : collect (vs.map (Except.ok (ε := ε))) = .ok vs := by
  induction vs with
  | nil => rfl
  | cons v vs ih => rw [List.map_cons, collect, ih]

/-- What a joined list turns into when all of it is settled. -/
def joined (f : φ) (rs : List (Except ε α)) : Promise φ ν α ε :=
  match collect rs with
  | .ok args => .calling f args
  | .error e => .settled (.error e)

/-- Induction over a promise, with the hypothesis for each promise of a joined list. -/
theorem Promise.ind {P : Promise φ ν α ε → Prop} (settled : ∀ r, P (.settled r))
    (reading : ∀ v, P (.reading v)) (joining : ∀ f ps, (∀ p ∈ ps, P p) → P (.joining f ps))
    (calling : ∀ f args, P (.calling f args)) (p : Promise φ ν α ε) : P p :=
  @Promise.rec φ ν α ε P (fun ps => ∀ p ∈ ps, P p) settled reading joining calling
    (fun _ h => absurd h List.not_mem_nil)
    (fun _ _ hp hps => List.forall_mem_cons.mpr ⟨hp, hps⟩) p

/-! ### What a promise stands for -/

/-- What the values and functions stand for: the result of a value, the result of a call, all the
calls made in the course of a call, itself included, and a bound on the steps it takes. -/
structure Model (φ ν α ε : Type) where
  val : ν → Except ε α
  app : φ → List α → Except ε α
  calls : φ → List α → Multiset (φ × List α)
  cost : φ → ℕ

variable (m : Model φ ν α ε)

/-- The result of calling a function with results. -/
def Model.apply (f : φ) (rs : List (Except ε α)) : Except ε α :=
  match collect rs with
  | .ok args => m.app f args
  | .error e => .error e

/-- The calls of calling a function with results: none if one of them is an error. -/
def Model.applyCalls (f : φ) (rs : List (Except ε α)) : Multiset (φ × List α) :=
  match collect rs with
  | .ok args => m.calls f args
  | .error _ => 0

mutual

/-- The result of a promise. -/
def Promise.denote : Promise φ ν α ε → Except ε α
  | .settled r => r
  | .reading v => m.val v
  | .joining f ps => m.apply f (denoteAll ps)
  | .calling f args => m.app f args

def denoteAll : List (Promise φ ν α ε) → List (Except ε α)
  | [] => []
  | p :: ps => p.denote :: denoteAll ps

end

mutual

/-- The calls still to be made for a promise. -/
def Promise.trace : Promise φ ν α ε → Multiset (φ × List α)
  | .settled _ => 0
  | .reading _ => 0
  | .joining f ps => traceAll ps + m.applyCalls f (denoteAll m ps)
  | .calling f args => m.calls f args

def traceAll : List (Promise φ ν α ε) → Multiset (φ × List α)
  | [] => 0
  | p :: ps => p.trace + traceAll ps

end

mutual

/-- A bound on the steps a promise has to go. -/
def Promise.rank : Promise φ ν α ε → ℕ
  | .settled _ => 0
  | .reading _ => 1
  | .joining f ps => rankAll ps + m.cost f + 2
  | .calling f _ => m.cost f + 1

def rankAll : List (Promise φ ν α ε) → ℕ
  | [] => 0
  | p :: ps => p.rank + rankAll ps

end

mutual

/-- All functions and values of a promise are of the given kinds. -/
def Promise.Uses (F : φ → Prop) (V : ν → Prop) : Promise φ ν α ε → Prop
  | .settled _ => True
  | .reading v => V v
  | .joining f ps => F f ∧ UsesAll F V ps
  | .calling f _ => F f

def UsesAll (F : φ → Prop) (V : ν → Prop) : List (Promise φ ν α ε) → Prop
  | [] => True
  | p :: ps => p.Uses F V ∧ UsesAll F V ps

end

variable {m}

theorem denoteAll_eq (ps : List (Promise φ ν α ε)) :
    denoteAll m ps = ps.map (Promise.denote m) := by
  induction ps with
  | nil => rfl
  | cons p ps ih => rw [denoteAll, ih, List.map_cons]

theorem traceAll_eq (ps : List (Promise φ ν α ε)) :
    traceAll m ps = (ps.map (Promise.trace m)).sum := by
  induction ps with
  | nil => rfl
  | cons p ps ih => rw [traceAll, ih, List.map_cons, List.sum_cons]

theorem rankAll_eq (ps : List (Promise φ ν α ε)) :
    rankAll m ps = (ps.map (Promise.rank m)).sum := by
  induction ps with
  | nil => rfl
  | cons p ps ih => rw [rankAll, ih, List.map_cons, List.sum_cons]

theorem usesAll_iff {F : φ → Prop} {V : ν → Prop} (ps : List (Promise φ ν α ε)) :
    UsesAll F V ps ↔ ∀ p ∈ ps, p.Uses F V := by
  induction ps with
  | nil => simp [UsesAll]
  | cons p ps ih => rw [UsesAll, ih, List.forall_mem_cons]

/-! ### Steps -/

/-- The steps of a promise, with the call that is made in the step, if one is: `read` is what is
known of the values by now, and `call` what a call turns into when it is made. -/
inductive Step (read : ν → Option (Except ε α)) (call : φ → List α → Promise φ ν α ε) :
    Promise φ ν α ε → Option (φ × List α) → Promise φ ν α ε → Prop
  | read {v : ν} {r : Except ε α} (h : read v = some r) :
      Step read call (.reading v) none (.settled r)
  | join (f : φ) (rs : List (Except ε α)) :
      Step read call (.joining f (rs.map .settled)) none (joined f rs)
  | inside (f : φ) (before : List (Promise φ ν α ε)) {p p' : Promise φ ν α ε}
      {e : Option (φ × List α)} (after : List (Promise φ ν α ε)) (h : Step read call p e p') :
      Step read call (.joining f (before ++ p :: after)) e (.joining f (before ++ p' :: after))
  | deliver (f : φ) (args : List α) :
      Step read call (.calling f args) (some (f, args)) (call f args)

/-- What reading a value and making a call do agrees with the model, for the given functions and
values: no value is known that is not the model's, and a call turns into a promise of the model's
result, with the calls of the model apart from itself, within the model's cost. -/
structure Realizes (m : Model φ ν α ε) (F : φ → Prop) (V : ν → Prop)
    (read : ν → Option (Except ε α)) (call : φ → List α → Promise φ ν α ε) : Prop where
  read_eq : ∀ v r, V v → read v = some r → r = m.val v
  denote : ∀ f args, F f → (call f args).denote m = m.app f args
  trace : ∀ f args, F f → m.calls f args = (f, args) ::ₘ (call f args).trace m
  rank : ∀ f args, F f → (call f args).rank m ≤ m.cost f
  uses : ∀ f args, F f → (call f args).Uses F V

/-- The call made in a step, as a multiset. -/
def made (e : Option (φ × List α)) : Multiset (φ × List α) := e.elim 0 ({·})

theorem denote_joined (f : φ) (rs : List (Except ε α)) :
    (joined f rs : Promise φ ν α ε).denote m = m.apply f rs := by
  unfold joined Model.apply
  cases collect rs <;> rfl

theorem trace_joined (f : φ) (rs : List (Except ε α)) :
    (joined f rs : Promise φ ν α ε).trace m = m.applyCalls f rs := by
  unfold joined Model.applyCalls
  cases collect rs <;> rfl

theorem denote_map_settled (rs : List (Except ε α)) :
    (rs.map (Promise.settled (φ := φ) (ν := ν))).map (Promise.denote m) = rs := by
  rw [List.map_map]
  exact List.map_id rs

theorem trace_map_settled (rs : List (Except ε α)) :
    ((rs.map (Promise.settled (φ := φ) (ν := ν))).map (Promise.trace m)).sum = 0 := by
  induction rs with
  | nil => rfl
  | cons r rs ih => rw [List.map_cons, List.map_cons, List.sum_cons, ih, Promise.trace, add_zero]

/-- **One step.** -/
theorem Realizes.step {F : φ → Prop} {V : ν → Prop} {read : ν → Option (Except ε α)}
    {call : φ → List α → Promise φ ν α ε} (h : Realizes m F V read call)
    {p p' : Promise φ ν α ε} {e : Option (φ × List α)} (hstep : Step read call p e p')
    (huses : p.Uses F V) :
    p'.Uses F V ∧ p'.denote m = p.denote m ∧ p.trace m = made e + p'.trace m ∧
      p'.rank m < p.rank m := by
  induction hstep with
  | @read v r hread =>
      exact ⟨trivial, h.read_eq v r huses hread, by simp [Promise.trace, made],
        by simp [Promise.rank]⟩
  | join f rs =>
      have hf : F f := huses.1
      refine ⟨?_, ?_, ?_, ?_⟩
      · unfold joined
        cases collect rs with
        | ok args => exact hf
        | error e => trivial
      · rw [denote_joined, Promise.denote, denoteAll_eq, denote_map_settled]
      · rw [trace_joined, Promise.trace, traceAll_eq, trace_map_settled, denoteAll_eq,
          denote_map_settled]
        rfl
      · unfold joined
        cases collect rs with
        | ok args =>
            simp only [Promise.rank]
            omega
        | error e =>
            simp only [Promise.rank]
            omega
  | @inside f before p p' e after _ ih =>
      obtain ⟨hf, hall⟩ := huses
      rw [usesAll_iff] at hall
      obtain ⟨huses', hdenote, htrace, hrank⟩ := ih (hall p (by simp))
      have hsame : denoteAll m (before ++ p' :: after) = denoteAll m (before ++ p :: after) := by
        simp only [denoteAll_eq, List.map_append, List.map_cons, hdenote]
      refine ⟨⟨hf, ?_⟩, ?_, ?_, ?_⟩
      · rw [usesAll_iff]
        intro q hq
        rcases List.mem_append.mp hq with hq | hq
        · exact hall q (List.mem_append_left _ hq)
        · rcases List.mem_cons.mp hq with rfl | hq
          · exact huses'
          · exact hall q (List.mem_append_right _ (List.mem_cons_of_mem _ hq))
      · rw [Promise.denote, Promise.denote, hsame]
      · simp only [Promise.trace, hsame, traceAll_eq, List.map_append, List.map_cons,
          List.sum_append, List.sum_cons, htrace]
        abel
      · simp only [Promise.rank, rankAll_eq, List.map_append, List.map_cons, List.sum_append,
          List.sum_cons]
        omega
  | deliver f args =>
      refine ⟨h.uses f args huses, h.denote f args huses, ?_, ?_⟩
      · rw [Promise.trace, h.trace f args huses]
        exact (Multiset.singleton_add _ _).symm
      · exact Nat.lt_succ_of_le (h.rank f args huses)

/-- **Progress.**  A promise whose values are all known is settled, or can make a step. -/
theorem progress {F : φ → Prop} {V : ν → Prop} {read : ν → Option (Except ε α)}
    {call : φ → List α → Promise φ ν α ε} (hread : ∀ v, V v → (read v).isSome)
    (p : Promise φ ν α ε) : p.Uses F V →
    (∃ r, p = .settled r) ∨ ∃ e p', Step read call p e p' := by
  induction p using Promise.ind with
  | settled r => exact fun _ => .inl ⟨r, rfl⟩
  | reading v =>
      intro huses
      obtain ⟨r, hr⟩ := Option.isSome_iff_exists.mp (hread v huses)
      exact .inr ⟨none, _, .read hr⟩
  | joining f ps ih =>
      rintro ⟨-, hall⟩
      rw [usesAll_iff] at hall
      refine .inr ?_
      -- either all of the list is settled, or some promise in it can make a step
      by_cases hsettled : ∀ p ∈ ps, ∃ r, p = .settled r
      · obtain ⟨rs, rfl⟩ : ∃ rs : List (Except ε α), ps = rs.map .settled := by
          clear ih hall
          induction ps with
          | nil => exact ⟨[], rfl⟩
          | cons p ps ih' =>
              rw [List.forall_mem_cons] at hsettled
              obtain ⟨⟨r, rfl⟩, hrest⟩ := hsettled
              obtain ⟨rs, rfl⟩ := ih' hrest
              exact ⟨r :: rs, rfl⟩
        exact ⟨none, _, .join f rs⟩
      · push Not at hsettled
        obtain ⟨p, hp, hnot⟩ := hsettled
        obtain ⟨before, after, rfl⟩ := List.append_of_mem hp
        rcases ih p hp (hall p hp) with ⟨r, rfl⟩ | ⟨e, p', hstep⟩
        · exact absurd rfl (hnot r)
        · exact ⟨e, _, .inside f before after hstep⟩
  | calling f args => exact fun _ => .inr ⟨_, _, .deliver f args⟩

end Promises

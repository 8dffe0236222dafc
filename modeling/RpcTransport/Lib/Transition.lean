import Mathlib.Algebra.BigOperators.Group.List.Basic
import Mathlib.Algebra.Ring.Nat
import Mathlib.Data.List.Count
import Mathlib.Data.List.Induction
import Mathlib.Logic.Function.Basic
import Mathlib.Logic.Relation

/-!
# Labelled runs of interleaved parties

A system of parties, each labelled by an `i : ι`, moves by `step i s s'`: party `i` turns the
global state `s` into `s'`.  A run is any finite interleaving of such moves.  This file holds what
is needed to state and prove that one party's job gets done in every interleaving:

* `run_of_exec` — executing a deterministic system along a list of labels is a run;
* `Run.invariant` — what every move preserves holds at the end of every run;
* `Run.split`, `Run.unique`, `Run.exists_cause` — a run cut at a label, its end determined by its
  labels, and the move that made something so;
* `Run.count_le` — a measure that only party `i`'s own moves touch, and that each of them lowers,
  bounds the number of moves of `i` in every run;
* `Delivers` — party `i` makes boundedly many moves, is never stuck before it is done, and is in a
  good state when it is done; `Delivers.exists_done` extracts a finished run, and
  `Delivers.exists_all_done` one in which several parties are done;
* `Delivers.congr` — a system that moves as another does from wherever that one can get;
* `Run.refines` — a step-by-step map into an abstract system maps whole runs into it;
* `Local` — moves that only touch the party's own component of the global state, with the lift of
  invariants, measures and refinements of one component to the whole;
* `sum_map_set_lt` — components in a list, one of which gets smaller.
-/

namespace Transition

variable {ι σ τ : Type*}

/-- A finite run.  The list holds the labels of the moves, the latest one first. -/
inductive Run (step : ι → σ → σ → Prop) (init : σ) : List ι → σ → Prop
  | refl : Run step init [] init
  | tail {i : ι} {ls : List ι} {s s' : σ} :
      Run step init ls s → step i s s' → Run step init (i :: ls) s'

/-- In a list of labels, the latest first, `i` comes before the last `j`. -/
def Precedes [DecidableEq ι] (i j : ι) : List ι → Prop
  | [] => False
  | l :: ls => if l = j then i ∈ ls else Precedes i j ls

@[simp] theorem precedes_cons_self [DecidableEq ι] (i j : ι) (ls : List ι) :
    Precedes i j (j :: ls) ↔ i ∈ ls := by
  rw [Precedes, if_pos rfl]

theorem precedes_cons_of_ne [DecidableEq ι] {i j l : ι} (h : l ≠ j) (ls : List ι) :
    Precedes i j (l :: ls) ↔ Precedes i j ls := by
  rw [Precedes, if_neg h]

/-- Execute a deterministic system along a list of labels, in order; `none` when a move is not
possible. -/
def exec (step : ι → σ → Option σ) (ls : List ι) (s : σ) : Option σ :=
  ls.foldlM (fun s l => step l s) s

/-- An execution is a run. -/
theorem run_of_exec {step : ι → σ → Option σ} {init : σ} : ∀ (ls : List ι) {s : σ},
    exec step ls init = some s → Run (fun l a b => step l a = some b) init ls.reverse s := by
  intro ls
  induction ls using List.reverseRecOn with
  | nil =>
      intro s h
      cases h
      exact .refl
  | append_singleton ls l ih =>
      intro s h
      rw [exec, List.foldlM_append] at h
      obtain ⟨u, hu, hstep⟩ := Option.bind_eq_some_iff.mp h
      rw [List.reverse_append, List.reverse_singleton, List.singleton_append]
      refine (ih hu).tail ?_
      simpa using hstep

/-- **Induction along a run.**  A property of the start that every move preserves. -/
theorem Run.invariant {step : ι → σ → σ → Prop} {init s : σ} {ls : List ι} {P : σ → Prop}
    (h : Run step init ls s) (hinit : P init)
    (hstep : ∀ i a b, P a → step i a b → P b) : P s := by
  induction h with
  | refl => exact hinit
  | tail _ hmove ih => exact hstep _ _ _ ih hmove

/-- A run goes on where another has ended. -/
theorem Run.append {step : ι → σ → σ → Prop} {init a s : σ} {older newer : List ι}
    (hold : Run step init older a) (hnew : Run step a newer s) :
    Run step init (newer ++ older) s := by
  induction hnew with
  | refl => exact hold
  | tail _ hmove ih => exact ih.tail hmove

/-- A run can be cut anywhere. -/
theorem Run.split {step : ι → σ → σ → Prop} {init s : σ} {older : List ι} : ∀ newer : List ι,
    Run step init (newer ++ older) s → ∃ a, Run step init older a ∧ Run step a newer s := by
  intro newer
  induction newer generalizing s with
  | nil => intro h; exact ⟨s, h, .refl⟩
  | cons i newer ih =>
      intro h
      cases h with
      | tail hrun hmove =>
          obtain ⟨a, hold, hnew⟩ := ih hrun
          exact ⟨a, hold, hnew.tail hmove⟩

/-- The labels of a run of a deterministic system determine its end. -/
theorem Run.unique {step : ι → σ → σ → Prop}
    (hdet : ∀ i a b c, step i a b → step i a c → b = c) {init s : σ} {ls : List ι}
    (h : Run step init ls s) : ∀ s', Run step init ls s' → s = s' := by
  induction h with
  | refl => intro s' h'; cases h'; rfl
  | tail _ hmove ih =>
      intro s' h'
      cases h' with
      | tail hrun hmove' =>
          cases ih _ hrun
          exact hdet _ _ _ _ hmove hmove'

/-- **What was not so at the start and is so now** was brought about by some move. -/
theorem Run.exists_cause {step : ι → σ → σ → Prop} {init s : σ} {ls : List ι} {P : σ → Prop}
    (h : Run step init ls s) (hinit : ¬ P init) (hs : P s) :
    ∃ newer i older a b, ls = newer ++ i :: older ∧ Run step init older a ∧ step i a b ∧
      ¬ P a ∧ P b := by
  induction h with
  | refl => exact absurd hs hinit
  | @tail i ls a b hrun hmove ih =>
      by_cases ha : P a
      · obtain ⟨newer, j, older, c, d, rfl, hrest⟩ := ih ha
        exact ⟨i :: newer, j, older, c, d, rfl, hrest⟩
      · exact ⟨[], i, ls, a, b, rfl, hrun, hmove, ha, hs⟩

/-- **Bounded work.**  If the moves of `i` lower `μ` and those of the others leave it alone, then
`i` has moved at most `μ init` times. -/
theorem Run.count_le [DecidableEq ι] {step : ι → σ → σ → Prop} {init s : σ} {ls : List ι}
    {P : σ → Prop} (i : ι) (μ : σ → ℕ) (h : Run step init ls s) (hinit : P init)
    (hstep : ∀ j a b, P a → step j a b → P b)
    (hown : ∀ a b, P a → step i a b → μ b < μ a)
    (hother : ∀ j a b, j ≠ i → P a → step j a b → μ b = μ a) :
    ls.count i + μ s ≤ μ init := by
  induction h with
  | refl => simp
  | @tail j ls a b hrun hmove ih =>
      have hP : P a := hrun.invariant hinit hstep
      rcases eq_or_ne j i with rfl | hne
      · have hlt := hown a b hP hmove
        rw [List.count_cons_self]
        omega
      · rw [List.count_cons_of_ne hne, hother j a b hne hP hmove]
        exact ih

/-- In every run from `init`, party `i` makes at most `bound` moves, can always move until `done`
holds, and finds `good` established once `done` holds. -/
structure Delivers [DecidableEq ι] (step : ι → σ → σ → Prop) (init : σ) (i : ι) (bound : ℕ)
    (done good : σ → Prop) : Prop where
  bounded : ∀ ls s, Run step init ls s → ls.count i ≤ bound
  progress : ∀ ls s, Run step init ls s → ¬ done s → ∃ s', step i s s'
  correct : ∀ ls s, Run step init ls s → done s → good s

/-- A larger bound, another way to say when it is done, and less to say of it then. -/
theorem Delivers.imp [DecidableEq ι] {step : ι → σ → σ → Prop} {init : σ} {i : ι}
    {bound bound' : ℕ} {done done' good good' : σ → Prop}
    (h : Delivers step init i bound done good) (hbound : bound ≤ bound')
    (hdone : ∀ s, done' s ↔ done s) (hgood : ∀ s, good s → good' s) :
    Delivers step init i bound' done' good' where
  bounded := fun ls s hrun => Nat.le_trans (h.bounded ls s hrun) hbound
  progress := fun ls s hrun hnot => h.progress ls s hrun fun hs => hnot ((hdone s).mpr hs)
  correct := fun ls s hrun hs => hgood s (h.correct ls s hrun ((hdone s).mp hs))

/-- A system that makes the same moves from wherever the other can get has the same runs. -/
theorem Run.congr {step step' : ι → σ → σ → Prop} {init s : σ} {ls : List ι}
    (hsame : ∀ ls s, Run step init ls s → ∀ i s', step' i s s' ↔ step i s s')
    (h : Run step' init ls s) : Run step init ls s := by
  induction h with
  | refl => exact .refl
  | tail _ hmove ih => exact ih.tail ((hsame _ _ ih _ _).mp hmove)

/-- And so it delivers the same. -/
theorem Delivers.congr [DecidableEq ι] {step step' : ι → σ → σ → Prop} {init : σ} {i : ι}
    {bound : ℕ} {done good : σ → Prop} (h : Delivers step init i bound done good)
    (hsame : ∀ ls s, Run step init ls s → ∀ j s', step' j s s' ↔ step j s s') :
    Delivers step' init i bound done good where
  bounded := fun ls s hrun => h.bounded ls s (hrun.congr hsame)
  progress := fun ls s hrun hnot => by
    obtain ⟨s', hmove⟩ := h.progress ls s (hrun.congr hsame) hnot
    exact ⟨s', (hsame ls s (hrun.congr hsame) i s').mpr hmove⟩
  correct := fun ls s hrun => h.correct ls s (hrun.congr hsame)

/-- A run that keeps moving `i` gets to the end: there is a finished run. -/
theorem Delivers.exists_done [DecidableEq ι] {step : ι → σ → σ → Prop} {init : σ} {i : ι}
    {bound : ℕ} {done good : σ → Prop} (h : Delivers step init i bound done good) :
    ∃ ls s, Run step init ls s ∧ done s ∧ good s := by
  -- a run with `k` moves of `i` either is finished or extends to one with `k + 1`
  have hextend : ∀ k, (∃ ls s, Run step init ls s ∧ done s) ∨
      ∃ ls s, Run step init ls s ∧ ls.count i = k := by
    intro k
    induction k with
    | zero => exact .inr ⟨[], init, .refl, rfl⟩
    | succ k ih =>
        rcases ih with hdone | ⟨ls, s, hrun, hcount⟩
        · exact .inl hdone
        · by_cases hs : done s
          · exact .inl ⟨ls, s, hrun, hs⟩
          · obtain ⟨s', hmove⟩ := h.progress ls s hrun hs
            exact .inr ⟨i :: ls, s', hrun.tail hmove, by rw [List.count_cons_self, hcount]⟩
  rcases hextend (bound + 1) with ⟨ls, s, hrun, hs⟩ | ⟨ls, s, hrun, hcount⟩
  · exact ⟨ls, s, hrun, hs, h.correct ls s hrun hs⟩
  · have := h.bounded ls s hrun
    omega

/-- What is delivered from the start on is delivered from wherever a run has got to. -/
theorem Delivers.after [DecidableEq ι] {step : ι → σ → σ → Prop} {init s : σ} {i : ι} {bound : ℕ}
    {done good : σ → Prop} (h : Delivers step init i bound done good) {ls : List ι}
    (hrun : Run step init ls s) : Delivers step s i bound done good where
  bounded := fun newer s' hnew => by
    have hle := h.bounded _ s' (hrun.append hnew)
    rw [List.count_append] at hle
    omega
  progress := fun _ s' hnew => h.progress _ s' (hrun.append hnew)
  correct := fun _ s' hnew => h.correct _ s' (hrun.append hnew)

/-- When being done lasts, there is a run in which any number of parties are done. -/
theorem Delivers.exists_all_done [DecidableEq ι] {step : ι → σ → σ → Prop} {init : σ}
    {bound : ι → ℕ} {done good : ι → σ → Prop}
    (h : ∀ i, Delivers step init i (bound i) (done i) (good i))
    (hlasts : ∀ i j a b, done i a → step j a b → done i b) (is : List ι) :
    ∃ ls s, Run step init ls s ∧ ∀ i ∈ is, good i s := by
  suffices hdone : ∃ ls s, Run step init ls s ∧ ∀ i ∈ is, done i s by
    obtain ⟨ls, s, hrun, hall⟩ := hdone
    exact ⟨ls, s, hrun, fun i hi => (h i).correct ls s hrun (hall i hi)⟩
  induction is with
  | nil => exact ⟨[], init, .refl, by simp⟩
  | cons i is ih =>
      obtain ⟨ls, s, hrun, hall⟩ := ih
      obtain ⟨newer, s', hnew, hi, -⟩ := ((h i).after hrun).exists_done
      refine ⟨newer ++ ls, s', hrun.append hnew, List.forall_mem_cons.mpr ⟨hi, ?_⟩⟩
      intro j hj
      exact hnew.invariant (P := done j) (hall j hj) fun k a b => hlasts j k a b

/-- **Refinement.**  If every move maps to a move of an abstract system or to none at all, every run
maps to a run of the abstract system. -/
theorem Run.refines {step : ι → σ → σ → Prop} {init s : σ} {ls : List ι} {P : σ → Prop}
    {astep : τ → τ → Prop} (f : σ → τ) (h : Run step init ls s) (hinit : P init)
    (hstep : ∀ i a b, P a → step i a b → P b)
    (hmap : ∀ i a b, P a → step i a b → astep (f a) (f b) ∨ f b = f a) :
    Relation.ReflTransGen astep (f init) (f s) := by
  induction h with
  | refl => exact .refl
  | @tail i ls a b hrun hmove ih =>
      rcases hmap i a b (hrun.invariant hinit hstep) hmove with hmoved | hstays
      · exact ih.tail hmoved
      · rw [hstays]
        exact ih

/-! ### Systems of components -/

/-- Party `i` sees of the global state its component `proj i`.  While `G` holds of the whole and `P`
of every component, a move of party `i` keeps `G`, is `comp i` on its own component, and leaves
every other component as it is. -/
def Local (G : σ → Prop) (proj : ι → σ → τ) (P : ι → τ → Prop) (comp : ι → τ → τ → Prop)
    (step : ι → σ → σ → Prop) : Prop :=
  ∀ i s s', G s → (∀ j, P j (proj j s)) → step i s s' →
    G s' ∧ comp i (proj i s) (proj i s') ∧ ∀ j, j ≠ i → proj j s' = proj j s

variable {G : σ → Prop} {proj : ι → σ → τ} {P : ι → τ → Prop} {comp : ι → τ → τ → Prop}
variable {step : ι → σ → σ → Prop}

/-- An invariant of every component is an invariant of the whole. -/
theorem Local.invariant [DecidableEq ι] (hlocal : Local G proj P comp step)
    (hcomp : ∀ i a b, P i a → comp i a b → P i b) :
    ∀ i s s', (G s ∧ ∀ j, P j (proj j s)) → step i s s' → G s' ∧ ∀ j, P j (proj j s') := by
  rintro i s s' ⟨hG, hs⟩ hmove
  obtain ⟨hG', hown, hrest⟩ := hlocal i s s' hG hs hmove
  refine ⟨hG', fun j => ?_⟩
  rcases eq_or_ne j i with rfl | hne
  · exact hcomp j _ _ (hs j) hown
  · rw [hrest j hne]
    exact hs j

/-- A measure of one component that its moves lower bounds the moves of that party. -/
theorem Local.count_le [DecidableEq ι] (hlocal : Local G proj P comp step)
    (hcomp : ∀ i a b, P i a → comp i a b → P i b) {init s : σ} {ls : List ι}
    (hrun : Run step init ls s) (hinit : G init ∧ ∀ j, P j (proj j init)) (i : ι) (μ : τ → ℕ)
    (hμ : ∀ a b, P i a → comp i a b → μ b < μ a) :
    ls.count i ≤ μ (proj i init) := by
  have hle := hrun.count_le (P := fun s => G s ∧ ∀ j, P j (proj j s)) i (fun s => μ (proj i s))
    hinit (hlocal.invariant hcomp)
    (fun a b ha hmove => hμ _ _ (ha.2 i) (hlocal i a b ha.1 ha.2 hmove).2.1)
    (fun j a b hne ha hmove => by rw [(hlocal j a b ha.1 ha.2 hmove).2.2 i hne.symm])
  omega

/-- What the moves of a component refine, the component's part of a run refines. -/
theorem Local.refines [DecidableEq ι] (hlocal : Local G proj P comp step)
    (hcomp : ∀ i a b, P i a → comp i a b → P i b) {init s : σ} {ls : List ι}
    (hrun : Run step init ls s) (hinit : G init ∧ ∀ j, P j (proj j init)) (i : ι) {ρ : Type*}
    {astep : ρ → ρ → Prop} (f : τ → ρ)
    (hmap : ∀ a b, P i a → comp i a b → astep (f a) (f b) ∨ f b = f a) :
    Relation.ReflTransGen astep (f (proj i init)) (f (proj i s)) := by
  refine hrun.refines (P := fun s => G s ∧ ∀ j, P j (proj j s)) (fun s => f (proj i s)) hinit
    (hlocal.invariant hcomp) ?_
  intro j a b ha hmove
  obtain ⟨-, hown, hrest⟩ := hlocal j a b ha.1 ha.2 hmove
  rcases eq_or_ne j i with rfl | hne
  · exact hmap _ _ (ha.2 j) hown
  · exact .inr (by rw [hrest i hne.symm])

/-- Where the components are a list, one that its move makes smaller makes the sum smaller. -/
theorem sum_map_set_lt {f : τ → ℕ} {xs : List τ} {j : ℕ} {a b : τ} (ha : xs[j]? = some a)
    (hlt : f b < f a) : ((xs.set j b).map f).sum < (xs.map f).sum := by
  obtain ⟨hj, rfl⟩ := List.getElem?_eq_some_iff.mp ha
  have hj' : j < (xs.map f).length := by
    rw [List.length_map]
    exact hj
  have hold : (xs.map f).set j (f xs[j]) = xs.map f := by
    rw [← List.map_set, List.set_getElem_self]
  have hsum := List.sum_set (xs.map f) j (f xs[j])
  have hnew := List.sum_set (xs.map f) j (f b)
  rw [hold, if_pos hj'] at hsum
  rw [if_pos hj'] at hnew
  rw [List.map_set]
  omega

end Transition

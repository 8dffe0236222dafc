import Mathlib.Data.List.Count
import Mathlib.Data.List.Induction
import RpcTransport.Lib.Transition

/-!
# Programs whose calls are remote

A program waits for the answer of one call at a time and goes on with it.  With a table of answers
it can be run on the spot (`Program.runLocal`).  In a distributed system its calls are carried out
in many small moves, interleaved with those of the calls of other programs, and each answer is
there only when its call is done.

* `Step` — the programs of all parties over a network that carries out their calls;
* `Step.net_run` — what the network does meanwhile is a run of the network;
* `delivers` — when the network delivers every call, each program gets to its end in every
  interleaving, in boundedly many moves, and ends as it does with local calls.
-/

namespace RemoteProgram

open Transition

variable {ι ρ κ α σ : Type*}

/-- A program: the call it waits for in each state, none at its end, and where an answer takes it.
Every answer brings it nearer to its end. -/
structure Program (ρ κ α : Type*) where
  pending : ρ → Option κ
  resume : ρ → α → ρ
  left : ρ → ℕ
  left_resume : ∀ r k a, pending r = some k → left (resume r a) < left r

/-- The program with every call answered on the spot. -/
def Program.runLocal (p : Program ρ κ α) (ans : κ → α) (r : ρ) : ρ :=
  match hk : p.pending r with
  | none => r
  | some k =>
      have : p.left (p.resume r (ans k)) < p.left r := p.left_resume r k _ hk
      p.runLocal ans (p.resume r (ans k))
termination_by p.left r

theorem Program.runLocal_none {p : Program ρ κ α} {ans : κ → α} {r : ρ} (h : p.pending r = none) :
    p.runLocal ans r = r := by
  rw [Program.runLocal]
  split
  · rfl
  · rename_i hk
    rw [h] at hk
    cases hk

theorem Program.runLocal_some {p : Program ρ κ α} {ans : κ → α} {r : ρ} {k : κ}
    (h : p.pending r = some k) : p.runLocal ans r = p.runLocal ans (p.resume r (ans k)) := by
  rw [Program.runLocal]
  split
  · rename_i hk
    rw [h] at hk
    cases hk
  · rename_i hk
    rw [h] at hk
    cases hk
    rfl

/-- The network, and where the program of each party stands. -/
structure State (ι ρ σ : Type*) where
  net : σ
  pos : ι → ρ

/-- The moves of party `i`: of the call it waits for, and of its program once the answer to this
call is there. -/
inductive Step [DecidableEq ι] (prog : ι → Program ρ κ α) (call : ι × κ → σ → σ → Prop)
    (answer : ι × κ → σ → Option α) (i : ι) (s : State ι ρ σ) : State ι ρ σ → Prop
  | move {k : κ} {t : σ} (hk : (prog i).pending (s.pos i) = some k) (h : call (i, k) s.net t) :
      Step prog call answer i s { s with net := t }
  | resume {k : κ} {a : α} (hk : (prog i).pending (s.pos i) = some k)
      (ha : answer (i, k) s.net = some a) :
      Step prog call answer i s
        { s with pos := Function.update s.pos i ((prog i).resume (s.pos i) a) }

variable [DecidableEq ι]

/-! ### The moves of one party in a run of the network -/

/-- The moves for calls of party `i` are those for the calls in a list that has all of them. -/
theorem countP_le [DecidableEq κ] {i : ι} {bound : ℕ} : ∀ (keys : List κ) (ls : List (ι × κ)),
    (∀ l ∈ ls, l.1 = i → l.2 ∈ keys) → (∀ k, ls.countP (fun l => l = (i, k)) ≤ bound) →
    ls.countP (fun l => l.1 = i) ≤ keys.length * bound := by
  intro keys
  induction keys with
  | nil =>
      intro ls hkeys _
      rw [List.countP_eq_zero.mpr fun l hl => ?_]
      · exact Nat.zero_le _
      · intro hli
        exact absurd (hkeys l hl (of_decide_eq_true hli)) List.not_mem_nil
  | cons k keys ih =>
      intro ls hkeys hcount
      -- the moves for call `k`, and the others
      have hsplit := List.countP_eq_countP_filter_add ls (fun l : ι × κ => decide (l.1 = i))
        fun l => decide (l = (i, k))
      have hself : (ls.filter fun l => decide (l = (i, k))).countP (fun l => decide (l.1 = i))
          ≤ bound := by
        refine Nat.le_trans List.countP_le_length ?_
        rw [← List.countP_eq_length_filter]
        exact hcount k
      have hrest := ih (ls.filter fun l => !decide (l = (i, k)))
        (fun l hl hli => by
          obtain ⟨hmem, hne⟩ := List.mem_filter.mp hl
          rcases List.mem_cons.mp (hkeys l hmem hli) with hk | hk
          · exact absurd (Prod.ext hli hk) (by simpa using hne)
          · exact hk)
        (fun k' => Nat.le_trans List.filter_sublist.countP_le (hcount k'))
      rw [List.length_cons, Nat.succ_mul]
      omega

section Runs

variable {prog : ι → Program ρ κ α} {call : ι × κ → σ → σ → Prop}
variable {answer : ι × κ → σ → Option α} {net : σ} {start : ι → ρ}

/-- What is known of party `i` in a run: the run of the network behind it, the calls the party has
had answered so far, and its moves, counted. -/
structure Progressed (prog : ι → Program ρ κ α) (call : ι × κ → σ → σ → Prop) (net : σ)
    (start : ι → ρ) (i : ι) (ls : List ι) (s : State ι ρ σ) (netLs : List (ι × κ))
    (answered : List κ) : Prop where
  run : Run call net netLs s.net
  left : answered.length + (prog i).left (s.pos i) ≤ (prog i).left (start i)
  keys : ∀ l ∈ netLs, l.1 = i → l.2 ∈ answered ∨ (prog i).pending (s.pos i) = some l.2
  count : ls.count i = answered.length + netLs.countP fun l => l.1 = i

/-- One more move, of any party. -/
theorem Progressed.step {i j : ι} {ls : List ι} {s s' : State ι ρ σ} {netLs : List (ι × κ)}
    {answered : List κ} (h : Progressed prog call net start i ls s netLs answered)
    (hstep : Step prog call answer j s s') :
    ∃ netLs' answered', Progressed prog call net start i (j :: ls) s' netLs' answered' := by
  cases hstep with
  | @move k t hk hmove =>
      refine ⟨(j, k) :: netLs, answered, h.run.tail hmove, h.left, ?_, ?_⟩
      · intro l hl hli
        rcases List.mem_cons.mp hl with rfl | hl
        · cases hli
          exact .inr hk
        · exact h.keys l hl hli
      · rw [List.count_cons, List.countP_cons, h.count]
        simp only [beq_iff_eq, decide_eq_true_eq]
        omega
  | @resume k a hk ha =>
      rcases eq_or_ne j i with rfl | hne
      · have hlt := (prog j).left_resume _ k a hk
        refine ⟨netLs, k :: answered, h.run, ?_, ?_, ?_⟩
        · have hle := h.left
          simp only [Function.update_self, List.length_cons]
          omega
        · intro l hl hli
          refine .inl ?_
          rcases h.keys l hl hli with hmem | hpend
          · exact List.mem_cons_of_mem _ hmem
          · rw [hk] at hpend
            cases hpend
            exact List.mem_cons_self
        · rw [List.count_cons_self, h.count, List.length_cons]
          omega
      · refine ⟨netLs, answered, h.run, ?_, ?_, ?_⟩
        · simp only [Function.update_of_ne hne.symm]
          exact h.left
        · simp only [Function.update_of_ne hne.symm]
          exact h.keys
        · rw [List.count_cons_of_ne hne, h.count]

theorem Progressed.of_run (i : ι) {ls : List ι} {s : State ι ρ σ}
    (h : Run (Step prog call answer) ⟨net, start⟩ ls s) :
    ∃ netLs answered, Progressed prog call net start i ls s netLs answered := by
  induction h with
  | refl => exact ⟨[], [], .refl, by simp, by simp, by simp⟩
  | tail _ hstep ih =>
      obtain ⟨netLs, answered, hprog⟩ := ih
      exact hprog.step hstep

/-- **The network runs underneath.** -/
theorem Step.net_run {ls : List ι} {s : State ι ρ σ}
    (h : Run (Step prog call answer) ⟨net, start⟩ ls s) : ∃ netLs, Run call net netLs s.net := by
  induction h with
  | refl => exact ⟨[], .refl⟩
  | tail _ hstep ih =>
      obtain ⟨netLs, hrun⟩ := ih
      cases hstep with
      | move _ hmove => exact ⟨_, hrun.tail hmove⟩
      | resume _ _ => exact ⟨_, hrun⟩

/-- A program at its end stays there. -/
theorem Step.pending_none {i j : ι} {s s' : State ι ρ σ} (hend : (prog i).pending (s.pos i) = none)
    (h : Step prog call answer j s s') : (prog i).pending (s'.pos i) = none := by
  cases h with
  | move _ _ => exact hend
  | resume hk _ =>
      rcases eq_or_ne i j with rfl | hne
      · rw [hend] at hk
        cases hk
      · simp only [Function.update_of_ne hne]
        exact hend

variable {ans : ι × κ → α} {bound : ι → ℕ}

/-- The answers that turn up are those of the table. -/
theorem answer_eq [DecidableEq κ]
    (hcall : ∀ c, Delivers call net c (bound c.1) (fun t => (answer c t).isSome)
      (fun t => answer c t = some (ans c)))
    {netLs : List (ι × κ)} {t : σ} (hrun : Run call net netLs t) {c : ι × κ} {a : α}
    (ha : answer c t = some a) : a = ans c := by
  have hgood := (hcall c).correct netLs t hrun (by rw [ha]; rfl)
  rw [ha] at hgood
  exact Option.some.inj hgood

/-- Where the program of party `i` is going does not change. -/
theorem runLocal_eq [DecidableEq κ]
    (hcall : ∀ c, Delivers call net c (bound c.1) (fun t => (answer c t).isSome)
      (fun t => answer c t = some (ans c))) (i : ι) {ls : List ι} {s : State ι ρ σ}
    (h : Run (Step prog call answer) ⟨net, start⟩ ls s) :
    (prog i).runLocal (fun k => ans (i, k)) (s.pos i)
      = (prog i).runLocal (fun k => ans (i, k)) (start i) := by
  induction h with
  | refl => rfl
  | @tail j ls s s' hrun hstep ih =>
      obtain ⟨netLs, hnet⟩ := Step.net_run hrun
      cases hstep with
      | move _ _ => exact ih
      | @resume k a hk ha =>
          rcases eq_or_ne j i with rfl | hne
          · obtain rfl := answer_eq hcall hnet ha
            rw [← ih, Program.runLocal_some hk]
            simp only [Function.update_self]
          · simp only [Function.update_of_ne hne.symm]
            exact ih

/-- **Remote calls are as good as local ones.**  When the network delivers every call, then in every
interleaving the program of party `i` makes boundedly many moves, can move until it is at its end,
and ends as it does with every call answered on the spot. -/
theorem delivers [DecidableEq κ]
    (hcall : ∀ c, Delivers call net c (bound c.1) (fun t => (answer c t).isSome)
      (fun t => answer c t = some (ans c))) (i : ι) :
    Delivers (Step prog call answer) ⟨net, start⟩ i ((prog i).left (start i) * (bound i + 1))
      (fun s => (prog i).pending (s.pos i) = none)
      (fun s => s.pos i = (prog i).runLocal (fun k => ans (i, k)) (start i)) := by
  refine ⟨fun ls s hrun => ?_, fun ls s hrun hnot => ?_, fun ls s hrun hdone => ?_⟩
  · obtain ⟨netLs, answered, h⟩ := Progressed.of_run i hrun
    have hcount : ∀ k, netLs.countP (fun l => l = (i, k)) ≤ bound i :=
      fun k => (hcall (i, k)).bounded netLs s.net h.run
    have hleft := h.left
    rw [h.count]
    cases hk : (prog i).pending (s.pos i) with
    | none =>
        have hle := countP_le answered netLs
          (fun l hl hli => (h.keys l hl hli).resolve_right (by simp [hk])) hcount
        calc answered.length + netLs.countP (fun l => l.1 = i)
            ≤ answered.length * (bound i + 1) := by rw [Nat.mul_succ]; omega
          _ ≤ (prog i).left (start i) * (bound i + 1) := Nat.mul_le_mul_right _ (by omega)
    | some k =>
        -- the call under way is not answered yet
        have hlt := (prog i).left_resume _ k (ans (i, k)) hk
        have hle := countP_le (k :: answered) netLs (fun l hl hli => by
          rcases h.keys l hl hli with hmem | hpend
          · exact List.mem_cons_of_mem _ hmem
          · rw [hk] at hpend
            cases hpend
            exact List.mem_cons_self) hcount
        rw [List.length_cons] at hle
        calc answered.length + netLs.countP (fun l => l.1 = i)
            ≤ (answered.length + 1) * (bound i + 1) := by rw [Nat.mul_succ]; omega
          _ ≤ (prog i).left (start i) * (bound i + 1) := Nat.mul_le_mul_right _ (by omega)
  · obtain ⟨k, hk⟩ := Option.ne_none_iff_exists'.mp hnot
    obtain ⟨netLs, hnet⟩ := Step.net_run hrun
    by_cases hdone : (answer (i, k) s.net).isSome
    · obtain ⟨a, ha⟩ := Option.isSome_iff_exists.mp hdone
      exact ⟨_, .resume hk ha⟩
    · obtain ⟨t, ht⟩ := (hcall (i, k)).progress netLs s.net hnet hdone
      exact ⟨_, .move hk ht⟩
  · rw [← runLocal_eq hcall i hrun, Program.runLocal_none hdone]

end Runs

end RemoteProgram

import Mathlib.Algebra.Order.Group.Multiset
import Mathlib.Data.Finset.Lattice.Fold
import Mathlib.Logic.Function.Basic
import Mathlib.Order.Lattice.Nat
import Mathlib.Tactic.Common

/-!
# Objects that live as long as their operations

An object starts an asynchronous operation and gives its own address as the tag.  Operations
complete in any order; each leaves an event with its tag, and whoever takes the event finds the
object by the tag and either starts the object's next operation or destroys the object.

`Owned hand s` says that the objects alive are exactly those in hand, those of an operation under
way and those of an event, each of them once.  Then no tag dangles, nothing is destroyed twice and
nothing is forgotten.

* `Owned.new`, `Owned.resume`, `Owned.complete`, `Owned.take`, `Owned.free` — what keeps it so;
* `Owned.live_of_pending`, `Owned.live_of_event` — the objects behind the tags;
* `Owned.heap_quiet` — with no operation and no event there is no object.
-/

namespace Completion

variable {ω η : Type}

/-- The objects by address, the operations under way and the events not taken yet. -/
structure State (ω η : Type) where
  heap : ℕ → Option ω
  pending : Multiset (ℕ × η)
  events : Multiset (ℕ × Bool)

namespace State

def empty : State ω η := ⟨fun _ => none, 0, 0⟩

/-- The tags of all operations and events. -/
def tags (s : State ω η) : Multiset ℕ := s.pending.map Prod.fst + s.events.map Prod.fst

/-- The object at `a`, new or not, is now `x` and starts an operation. -/
def start (s : State ω η) (a : ℕ) (x : ω) (k : η) : State ω η :=
  { s with heap := Function.update s.heap a (some x), pending := (a, k) ::ₘ s.pending }

/-- An operation is done and leaves `rest`; its result is in the object. -/
def complete (s : State ω η) (rest : Multiset (ℕ × η)) (a : ℕ) (x : ω) (ok : Bool) : State ω η :=
  { heap := Function.update s.heap a (some x), pending := rest, events := (a, ok) ::ₘ s.events }

/-- An event is taken and leaves `rest`. -/
def take (s : State ω η) (rest : Multiset (ℕ × Bool)) : State ω η := { s with events := rest }

/-- The object is destroyed. -/
def free (s : State ω η) (a : ℕ) : State ω η := { s with heap := Function.update s.heap a none }

end State

/-- The objects alive: those in hand, and those of an operation or an event, each of them once. -/
structure Owned (hand : Multiset ℕ) (s : State ω η) : Prop where
  nodup : (hand + s.tags).Nodup
  live : ∀ a, (s.heap a).isSome ↔ a ∈ hand + s.tags

namespace Owned

variable {hand : Multiset ℕ} {s : State ω η} {a : ℕ}

theorem empty : Owned 0 (State.empty : State ω η) where
  nodup := Multiset.nodup_zero
  live := fun a => by simp [State.empty, State.tags]

theorem tags_start (s : State ω η) (a : ℕ) (x : ω) (k : η) :
    (s.start a x k).tags = a ::ₘ s.tags := by
  rw [State.tags, State.tags, State.start, Multiset.map_cons, Multiset.cons_add]

theorem isSome_update (heap : ℕ → Option ω) (a b : ℕ) (x : ω) :
    (Function.update heap a (some x) b).isSome ↔ b = a ∨ (heap b).isSome := by
  rcases eq_or_ne b a with rfl | hne
  · simp [Function.update_self]
  · rw [Function.update_of_ne hne]
    simp [hne]

/-- A new object, where there is none, starts an operation. -/
theorem new (h : Owned hand s) (hfree : s.heap a = none) (x : ω) (k : η) :
    Owned hand (s.start a x k) := by
  have hnot : a ∉ hand + s.tags := by
    intro hmem
    have hlive := (h.live a).mpr hmem
    rw [hfree] at hlive
    cases hlive
  refine ⟨?_, ?_⟩
  · rw [tags_start, Multiset.add_cons]
    exact Multiset.nodup_cons.mpr ⟨hnot, h.nodup⟩
  · intro b
    rw [tags_start, Multiset.add_cons, Multiset.mem_cons, ← h.live b]
    exact isSome_update s.heap a b x

/-- The object in hand starts its next operation. -/
theorem resume (h : Owned (a ::ₘ hand) s) (x : ω) (k : η) : Owned hand (s.start a x k) := by
  have hsame : hand + a ::ₘ s.tags = a ::ₘ hand + s.tags := by
    rw [Multiset.add_cons, Multiset.cons_add]
  refine ⟨?_, ?_⟩
  · rw [tags_start, hsame]
    exact h.nodup
  · intro b
    rw [tags_start, hsame, ← h.live b]
    refine (isSome_update s.heap a b x).trans (or_iff_right_of_imp ?_)
    rintro rfl
    exact (h.live b).mpr (Multiset.mem_add.mpr (.inl (Multiset.mem_cons_self b hand)))

/-- The object in hand is destroyed. -/
theorem free (h : Owned (a ::ₘ hand) s) : Owned hand (s.free a) := by
  have hnodup := h.nodup
  rw [Multiset.cons_add, Multiset.nodup_cons] at hnodup
  refine ⟨hnodup.2, ?_⟩
  intro b
  show (Function.update s.heap a none b).isSome ↔ b ∈ hand + s.tags
  rcases eq_or_ne b a with rfl | hne
  · rw [Function.update_self]
    exact ⟨(fun hsome => by cases hsome), fun hmem => absurd hmem hnodup.1⟩
  · rw [Function.update_of_ne hne, h.live b, Multiset.cons_add, Multiset.mem_cons]
    exact or_iff_right hne

/-- An operation completes. -/
theorem complete (h : Owned hand s) {k : η} {rest : Multiset (ℕ × η)}
    (hop : s.pending = (a, k) ::ₘ rest) (x : ω) (ok : Bool) :
    Owned hand (s.complete rest a x ok) := by
  have hsame : (s.complete rest a x ok).tags = s.tags := by
    rw [State.tags, State.tags, State.complete, hop, Multiset.map_cons, Multiset.map_cons,
      Multiset.add_cons, Multiset.cons_add]
  have hmem : a ∈ hand + s.tags := by
    rw [State.tags, hop, Multiset.map_cons, Multiset.cons_add, Multiset.add_cons]
    exact Multiset.mem_cons_self a _
  refine ⟨?_, ?_⟩
  · rw [hsame]
    exact h.nodup
  · intro b
    rw [hsame, ← h.live b]
    refine (isSome_update s.heap a b x).trans (or_iff_right_of_imp ?_)
    rintro rfl
    exact (h.live b).mpr hmem

/-- An event is taken: its object is in hand. -/
theorem take (h : Owned hand s) {ok : Bool} {rest : Multiset (ℕ × Bool)}
    (hev : s.events = (a, ok) ::ₘ rest) : Owned (a ::ₘ hand) (s.take rest) := by
  have hsame : a ::ₘ hand + (s.take rest).tags = hand + s.tags := by
    rw [State.tags, State.tags, State.take, hev, Multiset.map_cons, Multiset.add_cons,
      Multiset.add_cons, Multiset.cons_add]
  refine ⟨?_, ?_⟩
  · rw [hsame]
    exact h.nodup
  · intro b
    rw [hsame]
    exact h.live b

theorem live_of_pending (h : Owned hand s) {k : η} (hop : (a, k) ∈ s.pending) :
    ∃ x, s.heap a = some x := by
  refine Option.isSome_iff_exists.mp ((h.live a).mpr ?_)
  exact Multiset.mem_add.mpr (.inr (Multiset.mem_add.mpr
    (.inl (Multiset.mem_map.mpr ⟨(a, k), hop, rfl⟩))))

theorem live_of_event (h : Owned hand s) {ok : Bool} (hev : (a, ok) ∈ s.events) :
    ∃ x, s.heap a = some x := by
  refine Option.isSome_iff_exists.mp ((h.live a).mpr ?_)
  exact Multiset.mem_add.mpr (.inr (Multiset.mem_add.mpr
    (.inr (Multiset.mem_map.mpr ⟨(a, ok), hev, rfl⟩))))

/-- An object has one operation or one event, not both and not two. -/
theorem ne_of_pending (h : Owned hand s) {k : η} {rest : Multiset (ℕ × η)}
    (hop : s.pending = (a, k) ::ₘ rest) :
    (∀ b l, (b, l) ∈ rest → b ≠ a) ∧ ∀ b ok, (b, ok) ∈ s.events → b ≠ a := by
  have hnodup := (Multiset.nodup_add.mp h.nodup).2.1
  rw [State.tags, hop, Multiset.map_cons, Multiset.cons_add, Multiset.nodup_cons,
    Multiset.mem_add, not_or] at hnodup
  refine ⟨?_, ?_⟩
  · rintro b l hmem rfl
    exact hnodup.1.1 (Multiset.mem_map.mpr ⟨(b, l), hmem, rfl⟩)
  · rintro b ok hmem rfl
    exact hnodup.1.2 (Multiset.mem_map.mpr ⟨(b, ok), hmem, rfl⟩)

theorem ne_of_event (h : Owned hand s) {ok : Bool} {rest : Multiset (ℕ × Bool)}
    (hev : s.events = (a, ok) ::ₘ rest) :
    (∀ b l, (b, l) ∈ s.pending → b ≠ a) ∧ ∀ b ok', (b, ok') ∈ rest → b ≠ a := by
  have hnodup := (Multiset.nodup_add.mp h.nodup).2.1
  rw [State.tags, hev, Multiset.map_cons, Multiset.add_cons, Multiset.nodup_cons,
    Multiset.mem_add, not_or] at hnodup
  refine ⟨?_, ?_⟩
  · rintro b l hmem rfl
    exact hnodup.1.1 (Multiset.mem_map.mpr ⟨(b, l), hmem, rfl⟩)
  · rintro b ok' hmem rfl
    exact hnodup.1.2 (Multiset.mem_map.mpr ⟨(b, ok'), hmem, rfl⟩)

/-- There is always room for a new object. -/
theorem exists_free (h : Owned hand s) : ∃ a, s.heap a = none := by
  refine ⟨(hand + s.tags).toFinset.sup id + 1, ?_⟩
  rw [← Option.not_isSome_iff_eq_none, h.live]
  intro hmem
  have hle := Finset.le_sup (f := id) (Multiset.mem_toFinset.mpr hmem)
  rw [id_eq] at hle
  omega

/-- With nothing under way, no event and nothing in hand there is no object. -/
theorem heap_quiet (h : Owned 0 s) (hpending : s.pending = 0) (hevents : s.events = 0) (a : ℕ) :
    s.heap a = none := by
  rw [← Option.not_isSome_iff_eq_none, h.live, State.tags, hpending, hevents]
  simp

end Owned

end Completion

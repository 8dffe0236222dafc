import Mathlib.Data.Finmap
import Mathlib.Data.List.Nodup
import Mathlib.Order.Lattice.Nat
import Mathlib.Tactic.Common

/-!
# A heap of objects, owning pointers and vectors of them

Objects live at addresses of a finite heap; an allocator hands out any address that is not in use.
An owning pointer is null or the address of the one object it destroys at the end of its life.  A
vector that is full moves its elements to a larger storage: for owning pointers this leaves null
pointers behind, so that destroying the old storage destroys no object.

* `pushOwner_heap` — a push, reallocating or not, leaves every object where it is;
* `Owns` — the pointers of a list own pairwise different objects with given contents, and what
  allocation, stores and destruction elsewhere preserve of it.
-/

namespace Heap

variable {α β : Type}

/-- The objects alive, by address. -/
abbrev Store (α : Type) := Finmap fun _ : ℕ => α

/-- Where `new` puts an object, and how large a full vector grows. -/
structure Allocator (α : Type) where
  malloc : Store α → ℕ
  malloc_fresh : ∀ h, malloc h ∉ h
  capacity : ℕ → ℕ
  capacity_lt : ∀ n, n < capacity n

/-- The allocator that takes the address behind the highest one in use and doubles vectors. -/
def bump (α : Type) : Allocator α where
  malloc h := h.keys.sup id + 1
  malloc_fresh h hmem := by
    have hle := Finset.le_sup (f := id) (Finmap.mem_keys.mpr hmem)
    simp only [id_eq] at hle
    omega
  capacity n := 2 * n + 1
  capacity_lt n := by omega

/-- A `unique_ptr`. -/
abbrev Owner := Option ℕ

/-- The destructor of an owning pointer. -/
def destroy (h : Store α) : Owner → Store α
  | none => h
  | some a => h.erase a

def destroyAll (h : Store α) (ps : List Owner) : Store α := ps.foldl destroy h

/-- Move an owning pointer out of its place: the pointer, and what is left there. -/
def moveOut (p : Owner) : Owner × Owner := (p, none)

/-- A vector and the size of its storage. -/
structure Vec (β : Type) where
  elems : List β
  cap : ℕ
  fits : elems.length ≤ cap

/-- An empty vector, whatever has been reserved for it. -/
def Vec.empty (cap : ℕ) : Vec β := ⟨[], cap, Nat.zero_le _⟩

/-- Write behind the last element of a storage that has room. -/
def Vec.put (v : Vec β) (x : β) (hroom : v.elems.length < v.cap) : Vec β :=
  ⟨v.elems ++ [x], v.cap, by rw [List.length_append]; exact hroom⟩

/-- The same elements in a larger storage. -/
def Vec.grow (al : Allocator α) (v : Vec β) (elems : List β)
    (hlen : elems.length = v.elems.length) : Vec β :=
  ⟨elems, al.capacity v.cap, by have := v.fits; have := al.capacity_lt v.cap; omega⟩

theorem Vec.grow_room (al : Allocator α) (v : Vec β) (elems : List β)
    (hlen : elems.length = v.elems.length) :
    (v.grow al elems hlen).elems.length < (v.grow al elems hlen).cap := by
  have := v.fits
  have := al.capacity_lt v.cap
  simp only [Vec.grow]
  omega

/-- `push_back` of a value that is copied. -/
def Vec.push (al : Allocator α) (v : Vec β) (x : β) : Vec β :=
  if hroom : v.elems.length < v.cap then v.put x hroom
  else (v.grow al v.elems rfl).put x (v.grow_room al v.elems rfl)

/-- `push_back(std::move(p))` on a vector of owning pointers.  A full vector moves its pointers to
the new storage and destroys what they leave behind. -/
def pushOwner (al : Allocator α) (h : Store α) (v : Vec Owner) (p : Owner) :
    Store α × Vec Owner :=
  if hroom : v.elems.length < v.cap then (h, v.put p hroom)
  else
    let moved := v.elems.map moveOut
    have hlen : (moved.map Prod.fst).length = v.elems.length := by simp [moved]
    (destroyAll h (moved.map Prod.snd),
      (v.grow al (moved.map Prod.fst) hlen).put p (v.grow_room al (moved.map Prod.fst) hlen))

@[simp] theorem Vec.push_elems (al : Allocator α) (v : Vec β) (x : β) :
    (v.push al x).elems = v.elems ++ [x] := by
  unfold Vec.push
  split <;> rfl

@[simp] theorem pushOwner_elems (al : Allocator α) (h : Store α) (v : Vec Owner) (p : Owner) :
    (pushOwner al h v p).2.elems = v.elems ++ [p] := by
  unfold pushOwner
  split
  · rfl
  · simp [Vec.put, Vec.grow, moveOut, Function.comp_def]

theorem destroyAll_moved (h : Store α) (ps : List Owner) :
    destroyAll h ((ps.map moveOut).map Prod.snd) = h := by
  induction ps generalizing h with
  | nil => rfl
  | cons p ps ih => exact ih h

/-- **Growing a vector of owning pointers moves no object and destroys none.** -/
@[simp] theorem pushOwner_heap (al : Allocator α) (h : Store α) (v : Vec Owner) (p : Owner) :
    (pushOwner al h v p).1 = h := by
  unfold pushOwner
  split
  · rfl
  · exact destroyAll_moved h v.elems

/-! ### Ownership -/

/-- The objects at `cells` are alive and pairwise different, and hold `contents` in order. -/
structure Owns (h : Store α) (cells : List ℕ) (contents : List α) : Prop where
  nodup : cells.Nodup
  holds : cells.map (fun a => h.lookup a) = contents.map some

theorem Owns.nil (h : Store α) : Owns h [] [] := ⟨List.nodup_nil, rfl⟩

theorem Owns.length_eq {h : Store α} {cells : List ℕ} {contents : List α}
    (hown : Owns h cells contents) : cells.length = contents.length := by
  simpa using congrArg List.length hown.holds

/-- Reading through the `i`-th pointer. -/
theorem Owns.lookup {h : Store α} {cells : List ℕ} {contents : List α}
    (hown : Owns h cells contents) {i : ℕ} {a : ℕ} (ha : cells[i]? = some a) :
    h.lookup a = contents[i]? := by
  have hget := congrArg (fun xs => xs[i]?) hown.holds
  simp only [List.getElem?_map, ha, Option.map_some] at hget
  cases hx : contents[i]? with
  | none => simp [hx] at hget
  | some x =>
      rw [hx, Option.map_some, Option.some.injEq] at hget
      exact hget

theorem Owns.alive {h : Store α} {cells : List ℕ} {contents : List α}
    (hown : Owns h cells contents) {a : ℕ} (ha : a ∈ cells) : a ∈ h := by
  have hmem : h.lookup a ∈ contents.map some := by
    rw [← hown.holds]
    exact List.mem_map.mpr ⟨a, ha, rfl⟩
  obtain ⟨x, -, hx⟩ := List.mem_map.mp hmem
  exact Finmap.mem_of_lookup_eq_some hx.symm

/-- Only what is alive at the owned addresses matters. -/
theorem Owns.congr {h h' : Store α} {cells : List ℕ} {contents : List α}
    (hown : Owns h cells contents) (hsame : ∀ a ∈ cells, h'.lookup a = h.lookup a) :
    Owns h' cells contents := by
  refine ⟨hown.nodup, ?_⟩
  rw [← hown.holds]
  exact List.map_congr_left hsame

/-- Writing an object somewhere else. -/
theorem Owns.insert {h : Store α} {cells : List ℕ} {contents : List α}
    (hown : Owns h cells contents) {a : ℕ} (ha : a ∉ cells) (x : α) :
    Owns (h.insert a x) cells contents := by
  refine hown.congr fun b hb => Finmap.lookup_insert_of_ne h ?_
  rintro rfl
  exact ha hb

/-- Destroying an object somewhere else. -/
theorem Owns.erase {h : Store α} {cells : List ℕ} {contents : List α}
    (hown : Owns h cells contents) {a : ℕ} (ha : a ∉ cells) : Owns (h.erase a) cells contents := by
  refine hown.congr fun b hb => Finmap.lookup_erase_ne ?_
  rintro rfl
  exact ha hb

/-- What an allocator hands out is owned by nobody. -/
theorem Owns.malloc_notMem {h : Store α} {cells : List ℕ} {contents : List α}
    (hown : Owns h cells contents) (al : Allocator α) : al.malloc h ∉ cells :=
  fun hmem => al.malloc_fresh h (hown.alive hmem)

/-- Taking ownership of one more object. -/
theorem Owns.snoc {h : Store α} {cells : List ℕ} {contents : List α}
    (hown : Owns h cells contents) {a : ℕ} {x : α} (ha : a ∉ cells) (hx : h.lookup a = some x) :
    Owns h (cells ++ [a]) (contents ++ [x]) := by
  refine ⟨?_, ?_⟩
  · rw [List.nodup_append]
    refine ⟨hown.nodup, List.nodup_singleton a, fun b hb c hc => ?_⟩
    rw [List.mem_singleton.mp hc]
    rintro rfl
    exact ha hb
  · rw [List.map_append, List.map_append, hown.holds]
    simp [hx]

end Heap

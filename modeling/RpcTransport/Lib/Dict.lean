import Mathlib.Data.List.AList
import Mathlib.Data.List.Induction
import Mathlib.Data.List.Sort
import Mathlib.Order.Lattice

/-!
# Dictionaries filled by assignments

A dictionary built by a sequence of assignments `d[key x] = val x`, and the two lists a program
draws from it: the sorted keys and the items sorted by key.

* `mem_assignAll`, `lookup_assignAll`, `IsLast.lookup` — the keys are those assigned, each holds its
  last value;
* `sortedItems_keys`, `sortedKeys_strict` — the two sorts line up, and the keys increase strictly;
* `mem_sortedItems` — the items are the entries.
-/

namespace Assoc

variable {K V α : Type*}

/-- A dictionary; its keys are distinct. -/
abbrev Dict (K V : Type*) := AList fun _ : K => V

/-! ### Assignments -/

/-- `x` is the last of `xs` with the key `k`. -/
def IsLast (key : α → K) (xs : List α) (k : K) (x : α) : Prop :=
  ∃ pre post, xs = pre ++ x :: post ∧ key x = k ∧ ∀ y ∈ post, key y ≠ k

theorem IsLast.mem {key : α → K} {xs : List α} {k : K} {x : α} (h : IsLast key xs k x) :
    x ∈ xs := by
  obtain ⟨pre, post, rfl, -⟩ := h
  exact List.mem_append_right _ List.mem_cons_self

theorem IsLast.key_eq {key : α → K} {xs : List α} {k : K} {x : α} (h : IsLast key xs k x) :
    key x = k := by
  obtain ⟨pre, post, -, hkey, -⟩ := h
  exact hkey

section Assign

variable [DecidableEq K]

/-- `d[key x] = val x` for every `x`, in order. -/
def assignAll (key : α → K) (val : α → V) (d : Dict K V) (xs : List α) : Dict K V :=
  xs.foldl (fun d x => d.insert (key x) (val x)) d

variable {key : α → K} {val : α → V} {d : Dict K V}

theorem assignAll_append (xs : List α) (x : α) :
    assignAll key val d (xs ++ [x]) = (assignAll key val d xs).insert (key x) (val x) := by
  rw [assignAll, List.foldl_append]
  rfl

theorem mem_assignAll {k : K} {xs : List α} :
    k ∈ assignAll key val ∅ xs ↔ ∃ x ∈ xs, key x = k := by
  induction xs using List.reverseRecOn with
  | nil => simp [assignAll]
  | append_singleton xs x ih =>
      rw [assignAll_append, AList.mem_insert, ih]
      simp only [List.mem_append, List.mem_singleton]
      constructor
      · rintro (rfl | ⟨y, hy, rfl⟩)
        · exact ⟨x, Or.inr rfl, rfl⟩
        · exact ⟨y, Or.inl hy, rfl⟩
      · rintro ⟨y, hy | rfl, rfl⟩
        · exact Or.inr ⟨y, hy, rfl⟩
        · exact Or.inl rfl

/-- **The last assignment wins.** -/
theorem lookup_assignAll {k : K} {v : V} {xs : List α}
    (h : (assignAll key val ∅ xs).lookup k = some v) : ∃ x, IsLast key xs k x ∧ val x = v := by
  induction xs using List.reverseRecOn with
  | nil => cases h
  | append_singleton xs x ih =>
      rw [assignAll_append] at h
      by_cases hk : key x = k
      · subst hk
        rw [AList.lookup_insert, Option.some.injEq] at h
        exact ⟨x, ⟨xs, [], rfl, rfl, by simp⟩, h⟩
      · rw [AList.lookup_insert_ne (Ne.symm hk)] at h
        obtain ⟨y, ⟨pre, post, rfl, hy, hpost⟩, hval⟩ := ih h
        refine ⟨y, ⟨pre, post ++ [x], by simp, hy, ?_⟩, hval⟩
        rw [List.forall_mem_append, List.forall_mem_singleton]
        exact ⟨hpost, hk⟩

/-- **And stays there**, whatever is assigned to other keys after it. -/
theorem IsLast.lookup {k : K} {x : α} {xs : List α} (h : IsLast key xs k x) :
    (assignAll key val ∅ xs).lookup k = some (val x) := by
  obtain ⟨pre, post, rfl, rfl, hpost⟩ := h
  induction post using List.reverseRecOn with
  | nil => rw [assignAll_append, AList.lookup_insert]
  | append_singleton post y ih =>
      rw [List.forall_mem_append, List.forall_mem_singleton] at hpost
      rw [← List.cons_append, ← List.append_assoc, assignAll_append,
        AList.lookup_insert_ne (Ne.symm hpost.2)]
      exact ih hpost.1

end Assign

/-! ### Sorting -/

section Sorted

variable [LinearOrder K]

/-- `sorted(d.keys())`. -/
def sortedKeys (d : Dict K V) : List K := d.keys.mergeSort

/-- `sorted(d.items())`.  No two items have one key, so only the keys are compared. -/
def sortedItems (d : Dict K V) : List (Σ _ : K, V) :=
  d.entries.mergeSort fun a b => decide (a.1 ≤ b.1)

/-- **The two sorts line up.** -/
theorem sortedItems_keys (d : Dict K V) : (sortedItems d).map Sigma.fst = sortedKeys d :=
  List.map_mergeSort fun _ _ _ _ => rfl

theorem mem_sortedItems {d : Dict K V} {k : K} {v : V} :
    (⟨k, v⟩ : Σ _ : K, V) ∈ sortedItems d ↔ d.lookup k = some v := by
  rw [sortedItems, List.mem_mergeSort]
  exact AList.mem_lookup_iff.symm

theorem sortedKeys_strict (d : Dict K V) : (sortedKeys d).Pairwise (· < ·) := by
  have hle : (sortedKeys d).Pairwise (· ≤ ·) := by
    simpa [sortedKeys] using List.pairwise_mergeSort' (· ≤ ·) d.keys
  have hnodup : (sortedKeys d).Nodup := (List.mergeSort_perm _ _).nodup_iff.mpr d.keys_nodup
  exact (hle.and hnodup).imp fun h => lt_of_le_of_ne h.1 h.2

end Sorted

end Assoc

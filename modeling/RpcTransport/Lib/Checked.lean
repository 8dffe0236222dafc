import Mathlib.Data.List.Range
import Mathlib.Tactic.Common

/-!
# Computations that record their memory reads

`Checked ε α` is a computation that may fail with an `ε` and that lists, in order, every read it
makes of memory it was handed: how far the read reaches (`len`) and how large the buffer is
(`size`).  The result and the reads are kept apart, so that what a program computes (`val`) and
whether it stays inside its buffers (`Safe`) are two separate questions about one definition.

* `val_bind`, `safe_bind` — the two questions distribute over sequencing;
* `forRange` — the counted loop, with `forRange_append` (a loop that appends one element per
  iteration), `forRange_error` (a loop whose first iteration fails) and `safe_forRange`;
* `collect` — the loop over a list, with `collect_map` and `safe_collect`.
-/

/-- A read of memory: it reaches `len` bytes (or elements) into a buffer that holds `size`. -/
structure Access where
  len : ℕ
  size : ℕ
  deriving DecidableEq, Repr

/-- The read stays inside the buffer. -/
def Access.InBounds (a : Access) : Prop := a.len ≤ a.size

instance (a : Access) : Decidable a.InBounds := inferInstanceAs (Decidable (a.len ≤ a.size))

/-- A computation with the reads it makes, the ones before a failure included. -/
structure Checked (ε α : Type) where
  reads : List Access
  val : Except ε α

namespace Checked

variable {ε α β σ : Type}

/-- Sequencing: the second part runs, and reads, only if the first returns. -/
def bind (m : Checked ε α) (f : α → Checked ε β) : Checked ε β :=
  match m.val with
  | .ok a => ⟨m.reads ++ (f a).reads, (f a).val⟩
  | .error e => ⟨m.reads, .error e⟩

instance : Monad (Checked ε) where
  pure a := ⟨[], .ok a⟩
  bind := bind

/-- Stop with a failure. -/
def fail (e : ε) : Checked ε α := ⟨[], .error e⟩

/-- Read `len` bytes of a buffer of `size` bytes. -/
def access (len size : ℕ) : Checked ε Unit := ⟨[⟨len, size⟩], .ok ()⟩

/-- Every read stays inside its buffer. -/
def Safe (m : Checked ε α) : Prop := ∀ a ∈ m.reads, a.InBounds

instance (m : Checked ε α) : Decidable m.Safe :=
  inferInstanceAs (Decidable (∀ a ∈ m.reads, a.InBounds))

/-! ### Results -/

@[simp] theorem val_pure (a : α) : (pure a : Checked ε α).val = .ok a := rfl

@[simp] theorem val_fail (e : ε) : (fail e : Checked ε α).val = .error e := rfl

@[simp] theorem val_access (len size : ℕ) : (access len size : Checked ε Unit).val = .ok () := rfl

theorem val_bind (m : Checked ε α) (f : α → Checked ε β) :
    (m >>= f).val = m.val >>= fun a => (f a).val := by
  show (bind m f).val = _
  unfold bind
  cases m.val <;> rfl

theorem val_bind_ok {m : Checked ε α} {a : α} (h : m.val = .ok a) (f : α → Checked ε β) :
    (m >>= f).val = (f a).val := by
  rw [val_bind, h]
  rfl

theorem val_bind_error {m : Checked ε α} {e : ε} (h : m.val = .error e) (f : α → Checked ε β) :
    (m >>= f).val = .error e := by
  rw [val_bind, h]
  rfl

/-! ### Reads -/

@[simp] theorem safe_pure (a : α) : (pure a : Checked ε α).Safe := by
  intro x hx
  cases hx

@[simp] theorem safe_fail (e : ε) : (fail e : Checked ε α).Safe := by
  intro x hx
  cases hx

@[simp] theorem safe_access {len size : ℕ} :
    (access len size : Checked ε Unit).Safe ↔ len ≤ size := by
  simp [Safe, access, Access.InBounds]

/-- A sequence is safe when its first part is, and its second part is whenever it is reached. -/
theorem safe_bind {m : Checked ε α} {f : α → Checked ε β} :
    (m >>= f).Safe ↔ m.Safe ∧ ∀ a, m.val = .ok a → (f a).Safe := by
  show (bind m f).Safe ↔ _
  unfold bind
  cases h : m.val with
  | ok a =>
      simp only [Safe, List.mem_append, Except.ok.injEq, forall_eq']
      constructor
      · intro hs
        exact ⟨fun x hx => hs x (.inl hx), fun x hx => hs x (.inr hx)⟩
      · rintro ⟨hm, hf⟩ x (hx | hx)
        · exact hm x hx
        · exact hf x hx
  | error e => simp [Safe]

theorem safe_bind_ok {m : Checked ε α} {a : α} (h : m.val = .ok a) (f : α → Checked ε β) :
    (m >>= f).Safe ↔ m.Safe ∧ (f a).Safe := by
  rw [safe_bind, h]
  simp

/-! ### Counted loops -/

/-- `for (i = start; i < start + count; ++i) body`. -/
def forRange (body : ℕ → σ → Checked ε σ) : ℕ → ℕ → σ → Checked ε σ
  | _, 0, s => pure s
  | i, n + 1, s => body i s >>= forRange body (i + 1) n

/-- **Appending loops.**  If iteration `j` appends `f j`, the loop appends all of them in order. -/
theorem forRange_append {body : ℕ → List α → Checked ε (List α)} {f : ℕ → α} :
    ∀ (n i : ℕ) (s : List α),
      (∀ j s, i ≤ j → j < i + n → (body j s).val = .ok (s ++ [f j])) →
      (forRange body i n s).val = .ok (s ++ (List.range' i n).map f) := by
  intro n
  induction n with
  | zero => intro i s _; simp [forRange]
  | succ n ih =>
      intro i s h
      rw [forRange, val_bind_ok (h i s le_rfl (by omega)),
        ih (i + 1) _ (fun j s hj hj' => h j s (by omega) (by omega)), List.range'_succ]
      simp

/-- A loop whose first iteration fails fails. -/
theorem forRange_error {body : ℕ → σ → Checked ε σ} {i n : ℕ} {s : σ} {e : ε} (hn : 0 < n)
    (h : (body i s).val = .error e) : (forRange body i n s).val = .error e := by
  obtain ⟨m, rfl⟩ : ∃ m, n = m + 1 := ⟨n - 1, by omega⟩
  rw [forRange, val_bind_error h]

/-- A loop of safe iterations is safe.  `P` is what the iterations preserve. -/
theorem safe_forRange {body : ℕ → σ → Checked ε σ} {P : ℕ → σ → Prop} :
    ∀ (n i : ℕ) (s : σ), P i s →
      (∀ j s, i ≤ j → j < i + n → P j s → (body j s).Safe) →
      (∀ j s s', i ≤ j → j < i + n → P j s → (body j s).val = .ok s' → P (j + 1) s') →
      (forRange body i n s).Safe := by
  intro n
  induction n with
  | zero => intro i s _ _ _; exact safe_pure s
  | succ n ih =>
      intro i s hP hsafe hstep
      rw [forRange, safe_bind]
      refine ⟨hsafe i s le_rfl (by omega) hP, fun s' hs' => ?_⟩
      exact ih (i + 1) s' (hstep i s s' le_rfl (by omega) hP hs')
        (fun j t hj hj' => hsafe j t (by omega) (by omega))
        (fun j t t' hj hj' => hstep j t t' (by omega) (by omega))

/-! ### Loops over a list -/

/-- `for (x : xs) { ... push_back(body(x)); }`. -/
def collect (body : α → Checked ε β) : List α → Checked ε (List β)
  | [] => pure []
  | x :: xs => do
      let y ← body x
      let ys ← collect body xs
      pure (y :: ys)

theorem collect_map {body : α → Checked ε β} {f : α → β} :
    ∀ (xs : List α), (∀ x ∈ xs, (body x).val = .ok (f x)) →
      (collect body xs).val = .ok (xs.map f) := by
  intro xs
  induction xs with
  | nil => intro _; rfl
  | cons x xs ih =>
      intro h
      rw [collect, val_bind_ok (h x (by simp)),
        val_bind_ok (ih fun y hy => h y (List.mem_cons_of_mem x hy))]
      rfl

theorem safe_collect {body : α → Checked ε β} :
    ∀ (xs : List α), (∀ x ∈ xs, (body x).Safe) → (collect body xs).Safe := by
  intro xs
  induction xs with
  | nil => intro _; exact safe_pure []
  | cons x xs ih =>
      intro h
      rw [collect, safe_bind]
      refine ⟨h x (by simp), fun y _ => ?_⟩
      rw [safe_bind]
      exact ⟨ih fun z hz => h z (List.mem_cons_of_mem x hz), fun ys _ => safe_pure _⟩

end Checked

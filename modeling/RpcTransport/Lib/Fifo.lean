import Mathlib.Data.List.Basic
import Mathlib.Data.List.TakeDrop
import Mathlib.Tactic.Common

/-!
# Lists that pass through a queue

A sender hands the elements of a list to a queue one by one, each packed as a message, and a
receiver takes them out at the other end.  `Passing pack whole delivered queue unsent` says where
the elements of `whole` are: first the delivered ones, then those in the queue, then those not sent
yet, in this order and each exactly once.

* `start`, `push`, `pop` — the three ways the situation comes about and changes;
* `whole_eq`, `prefix_of`, `length_eq` — what it says of the delivered part;
* `lose`, `cut` — what is left of it when the queue loses its end, and when the sender stops too.
-/

namespace Fifo

variable {α β : Type*} {pack : α → β}

/-- `whole` is what was delivered, then what `queue` holds, then what is still to be sent. -/
def Passing (pack : α → β) (whole delivered : List α) (queue : List β) (unsent : List α) : Prop :=
  ∃ inFlight : List α, queue = inFlight.map pack ∧ whole = delivered ++ inFlight ++ unsent

namespace Passing

variable {whole delivered unsent : List α} {queue : List β}

theorem start (whole : List α) : Passing pack whole [] [] whole := ⟨[], rfl, rfl⟩

/-- The sender sends the next element. -/
theorem push {x : α} (h : Passing pack whole delivered queue (x :: unsent)) :
    Passing pack whole delivered (queue ++ [pack x]) unsent := by
  obtain ⟨inFlight, hqueue, hwhole⟩ := h
  refine ⟨inFlight ++ [x], ?_, ?_⟩
  · rw [hqueue, List.map_append]
    rfl
  · rw [hwhole]
    simp

/-- The receiver takes the first message, which is the next element of `whole`, packed. -/
theorem pop {m : β} (h : Passing pack whole delivered (m :: queue) unsent) :
    ∃ x ∈ whole, m = pack x ∧ Passing pack whole (delivered ++ [x]) queue unsent := by
  obtain ⟨inFlight, hqueue, hwhole⟩ := h
  cases inFlight with
  | nil => cases hqueue
  | cons x inFlight =>
      obtain ⟨rfl, rfl⟩ := List.cons.inj hqueue
      refine ⟨x, ?_, rfl, inFlight, rfl, ?_⟩
      · rw [hwhole]
        simp
      · rw [hwhole]
        simp

/-- With an empty queue everything not delivered is unsent. -/
theorem whole_eq (h : Passing pack whole delivered [] unsent) : whole = delivered ++ unsent := by
  obtain ⟨inFlight, hqueue, hwhole⟩ := h
  rw [List.map_eq_nil_iff.mp hqueue.symm, List.append_nil] at hwhole
  exact hwhole

theorem prefix_of (h : Passing pack whole delivered queue unsent) : delivered <+: whole := by
  obtain ⟨inFlight, -, hwhole⟩ := h
  exact ⟨inFlight ++ unsent, by rw [hwhole, List.append_assoc]⟩

theorem length_eq (h : Passing pack whole delivered queue unsent) :
    delivered.length + queue.length + unsent.length = whole.length := by
  obtain ⟨inFlight, hqueue, hwhole⟩ := h
  rw [hqueue, hwhole]
  simp only [List.length_append, List.length_map]

theorem mem_queue {m : β} (h : Passing pack whole delivered queue unsent) (hm : m ∈ queue) :
    ∃ x ∈ whole, m = pack x := by
  obtain ⟨inFlight, hqueue, hwhole⟩ := h
  rw [hqueue] at hm
  obtain ⟨x, hx, rfl⟩ := List.mem_map.mp hm
  refine ⟨x, ?_, rfl⟩
  rw [hwhole]
  simp [hx]

/-- The queue loses all but its first `j` messages: what it lost counts as not sent. -/
theorem lose (h : Passing pack whole delivered queue unsent) (j : ℕ) :
    ∃ unsent', Passing pack whole delivered (queue.take j) unsent' ∧
      (queue.length ≤ j → unsent' = unsent) := by
  obtain ⟨inFlight, hqueue, hwhole⟩ := h
  refine ⟨inFlight.drop j ++ unsent, ⟨inFlight.take j, ?_, ?_⟩, fun hj => ?_⟩
  · rw [hqueue, List.map_take]
  · conv_lhs => rw [hwhole, ← List.take_append_drop j inFlight]
    simp only [List.append_assoc]
  · rw [hqueue, List.length_map] at hj
    rw [List.drop_eq_nil_of_le hj, List.nil_append]

/-- The sender stops and only the first `j` messages in the queue get through: what passes is the
beginning of `whole`. -/
theorem cut (h : Passing pack whole delivered queue unsent) {j : ℕ} (hj : j ≤ queue.length) :
    Passing pack (whole.take (delivered.length + j)) delivered (queue.take j) [] := by
  obtain ⟨inFlight, hqueue, hwhole⟩ := h
  have hlen : j ≤ inFlight.length := by
    rw [hqueue, List.length_map] at hj
    exact hj
  refine ⟨inFlight.take j, ?_, ?_⟩
  · rw [hqueue, List.map_take]
  · rw [hwhole, List.append_assoc, List.take_length_add_append,
      List.take_append_of_le_length hlen, List.append_nil]

end Passing

end Fifo

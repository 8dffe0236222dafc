import Mathlib.Data.List.Basic
import Mathlib.Logic.Relation

/-!
# What a remote call is for

A client hands over a request and waits for the answer.  In the abstract, three things happen: the
server is called with the request, the answer arrives piece by piece in order, and the call returns
when all of it is there.  `State` is what can be seen of this, `Step` are the three moves and
`Consistent` is what holds in every state they reach.  A transport is right when its own steps are
such moves, seen through the right window.
-/

namespace RemoteCall

variable {α : Type*}

/-- What can be seen of a call: the requests the server was called with, the part of the answer that
has arrived, and whether the call has returned. -/
structure State (α : Type*) where
  calls : List (List α) := []
  reply : List α := []
  returned : Bool := false

/-- The moves of a call with request `req` and answer `rsp`. -/
inductive Step (req rsp : List α) : State α → State α → Prop
  | serve {s : State α} (hcalls : s.calls = []) : Step req rsp s { s with calls := [req] }
  | deliver {s : State α} {b : α} (hcalls : s.calls = [req]) (hopen : s.returned = false)
      (hnext : s.reply ++ [b] <+: rsp) : Step req rsp s { s with reply := s.reply ++ [b] }
  | finish {s : State α} (hcalls : s.calls = [req]) (hall : s.reply = rsp) :
      Step req rsp s { s with returned := true }

/-- No call is taken back. -/
theorem Step.calls_le {req rsp : List α} {s s' : State α} (h : Step req rsp s s') :
    s.calls.length ≤ s'.calls.length := by
  cases h with
  | serve hcalls =>
      rw [hcalls]
      exact Nat.zero_le _
  | deliver => exact Nat.le_refl _
  | finish => exact Nat.le_refl _

/-- The server is called at most once, with the request; what has arrived is the beginning of the
answer to it; and the call returns with all of it. -/
structure Consistent (req rsp : List α) (s : State α) : Prop where
  once : s.calls = [] ∨ s.calls = [req]
  unserved : s.calls = [] → s.reply = [] ∧ s.returned = false
  ordered : s.reply <+: rsp
  complete : s.returned = true → s.calls = [req] ∧ s.reply = rsp

theorem Consistent.init (req rsp : List α) : Consistent req rsp {} :=
  ⟨.inl rfl, fun _ => ⟨rfl, rfl⟩, List.nil_prefix, by simp⟩

/-- One move keeps the call consistent. -/
theorem Consistent.step {req rsp : List α} {s s' : State α} (h : Consistent req rsp s)
    (hstep : Step req rsp s s') : Consistent req rsp s' := by
  cases hstep with
  | serve hcalls =>
      refine ⟨.inr rfl, by simp, h.ordered, fun hret => ?_⟩
      rw [(h.unserved hcalls).2] at hret
      cases hret
  | deliver hcalls hopen hnext =>
      refine ⟨.inr hcalls, fun hnil => ?_, hnext, fun hret => ?_⟩
      · rw [hcalls] at hnil
        cases hnil
      · rw [hopen] at hret
        cases hret
  | finish hcalls hall =>
      refine ⟨.inr hcalls, fun hnil => ?_, h.ordered, fun _ => ⟨hcalls, hall⟩⟩
      rw [hcalls] at hnil
      cases hnil

/-- **Every reachable state of a call is consistent.** -/
theorem Consistent.of_reachable {req rsp : List α} {s : State α}
    (h : Relation.ReflTransGen (Step req rsp) {} s) : Consistent req rsp s := by
  induction h with
  | refl => exact Consistent.init req rsp
  | tail _ hstep ih => exact ih.step hstep

end RemoteCall

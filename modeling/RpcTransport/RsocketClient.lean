import RpcTransport.Lib.Transition
import RpcTransport.Buffers

/-!
# The RSocket client: `sendReq`

The client subscribes to the response stream with a callback that stores each payload in the
caller's reply, and returns at once.  The strings and views are those of `Buffers`: the callback
makes its string as the other transports do, moves it to the container, and then takes the view
from the pointer it has moved from.

* `onNext_fault` — the callback ends in a null dereference whatever it is given;
* `sendReq_complete_iff` — the schedules in which the client gets the whole reply.
-/

namespace RpcTransport.Rsocket

open Heap (Store Allocator)
open Transition (Run Precedes exec run_of_exec)
open Buffers

/-! ### The program -/

/-- What `sendReq` and the worker thread do. -/
inductive SendEvent
  /-- `reqChannel->subscribe(…)` -/
  | subscribe
  /-- a payload of the response reaches the callback -/
  | onNext
  /-- the response completes -/
  | onComplete
  /-- `sendReq` returns to the caller -/
  | ret
  deriving DecidableEq, Repr

inductive SendPc
  | entered
  | subscribed
  | returned
  deriving DecidableEq, Repr

/-- The caller's `reply` and `replyData`, the payloads still to come, whether the response had
completed when `sendReq` returned, whether a payload was stored after that, and the fault that has
ended the process. -/
structure SendState where
  pc : SendPc := .entered
  pending : List Bytes
  completed : Bool := false
  bufs : Bufs
  completedAtReturn : Bool := false
  storedLate : Bool := false
  fault : Option Fault := none

variable (al : Allocator Bytes)

/-- The callback on one payload.  The view is taken from `strP`, which has just been moved to the
container: what is left of it is null. -/
def onNext (p : Bytes) (s : Bufs) : Bufs × Option Fault :=
  let (str, heap) := newString al p s.heap
  let (owned, heap) := moveString al str heap
  let (moved, strP) := Heap.moveOut (some owned)
  let s := pushData al moved { s with heap }
  match pushView al strP s with
  | .ok s => ({ s with heap := s.heap.erase str }, none)
  | .error e => (s, some e)

def sendStep : SendEvent → SendState → Option SendState
  | .subscribe, s =>
      if s.pc = .entered ∧ s.fault = none then some { s with pc := .subscribed } else none
  | .onNext, s =>
      match s.pending with
      | [] => none
      | p :: ps =>
          if s.pc ≠ .entered ∧ s.fault = none then
            let (bufs, fault) := onNext al p s.bufs
            some { s with
              pending := ps
              bufs
              fault
              storedLate := s.storedLate || decide (s.pc = .returned) }
          else none
  | .onComplete, s =>
      if s.pc ≠ .entered ∧ s.fault = none ∧ s.pending = [] ∧ s.completed = false then
        some { s with completed := true }
      else none
  | .ret, s =>
      if s.pc = .subscribed ∧ s.fault = none then
        some { s with pc := .returned, completedAtReturn := s.completed }
      else none

def SendMoves (e : SendEvent) (s s' : SendState) : Prop := sendStep al e s = some s'

/-- The schedule is over: a fault has ended the process, or `sendReq` has returned and the response
has been delivered to its end. -/
def SendState.Finished (s : SendState) : Prop :=
  s.fault ≠ none ∨ (s.pc = .returned ∧ s.completed = true)

/-- The response had completed by the return of `sendReq`; nothing went wrong and nothing was stored
later; the reply has one string and one view of it for each payload, in order. -/
structure ReplyComplete (payloads : List Bytes) (s : SendState) : Prop where
  noFault : s.fault = none
  inTime : s.completedAtReturn = true
  notLate : s.storedLate = false
  data_length : s.bufs.msgData.elems.length = payloads.length
  bufs_length : s.bufs.bufs.elems.length = payloads.length
  views : ∀ (i : ℕ) (p : Bytes), payloads[i]? = some p → ∃ v : View,
    s.bufs.bufs.elems[i]? = some v ∧ s.bufs.msgData.elems[i]? = some (some v.addr) ∧
      readView s.bufs.heap v = some p

variable {al}

/-! ### Its schedules -/

/-- **The callback dereferences the pointer it has moved from**, whatever the payload. -/
theorem onNext_fault (p : Bytes) (s : Bufs) : (onNext al p s).2 = some .nullDeref := rfl

/-- What holds in every schedule: until a payload arrives nothing has been stored, and the first
that arrives ends the process. -/
structure SendInv (payloads : List Bytes) (bufs : Bufs) (ls : List SendEvent)
    (s : SendState) : Prop where
  faulted : s.fault ≠ none → payloads ≠ []
  untouched : s.fault = none → s.pending = payloads ∧ s.bufs = bufs ∧ s.storedLate = false
  drained : s.completed = true → s.pending = []
  completed : s.completed = true ↔ .onComplete ∈ ls
  returned : s.pc = .returned →
    (s.completedAtReturn = true ↔ Precedes SendEvent.onComplete .ret ls)

theorem SendInv.init (payloads : List Bytes) (bufs : Bufs) :
    SendInv payloads bufs [] { pending := payloads, bufs } :=
  ⟨fun h => absurd rfl h, fun _ => ⟨rfl, rfl, rfl⟩, by simp, by simp, fun h => by cases h⟩

theorem SendInv.move {payloads : List Bytes} {bufs : Bufs} {ls : List SendEvent}
    {e : SendEvent} {s s' : SendState} (hinv : SendInv payloads bufs ls s)
    (hmove : SendMoves al e s s') : SendInv payloads bufs (e :: ls) s' := by
  unfold SendMoves at hmove
  cases e with
  | subscribe =>
      rw [sendStep] at hmove
      split at hmove
      · cases hmove
        exact ⟨hinv.faulted, hinv.untouched, hinv.drained, by simpa using hinv.completed,
          fun h => by cases h⟩
      · cases hmove
  | onNext =>
      rw [sendStep] at hmove
      split at hmove
      · cases hmove
      · rename_i p ps hpending
        split at hmove
        · rename_i hcond
          cases hmove
          refine ⟨fun _ hnil => ?_, fun hnone => ?_, fun hc => ?_, by simpa using hinv.completed,
            ?_⟩
          · rw [(hinv.untouched hcond.2).1, hnil] at hpending
            cases hpending
          · have hfault : (onNext al p s.bufs).2 = none := hnone
            rw [onNext_fault] at hfault
            cases hfault
          · simp [hinv.drained hc] at hpending
          · rw [Transition.precedes_cons_of_ne (by decide)]
            exact hinv.returned
        · cases hmove
  | onComplete =>
      rw [sendStep] at hmove
      split at hmove
      · rename_i hcond
        cases hmove
        refine ⟨hinv.faulted, hinv.untouched, fun _ => hcond.2.2.1, by simp, ?_⟩
        rw [Transition.precedes_cons_of_ne (by decide)]
        exact hinv.returned
      · cases hmove
  | ret =>
      rw [sendStep] at hmove
      split at hmove
      · cases hmove
        refine ⟨hinv.faulted, hinv.untouched, hinv.drained, by simpa using hinv.completed,
          fun _ => ?_⟩
        rw [Transition.precedes_cons_self]
        exact hinv.completed
      · cases hmove

theorem send_inv {payloads : List Bytes} {bufs : Bufs} {ls : List SendEvent} {s : SendState}
    (hrun : Run (SendMoves al) { pending := payloads, bufs } ls s) :
    SendInv payloads bufs ls s := by
  induction hrun with
  | refl => exact SendInv.init payloads bufs
  | tail _ hmove ih => exact ih.move hmove

variable (al) in
/-- **The schedules in which the client gets the whole reply.**  For every response stream, on any
heap, and every schedule that is over: exactly those in which there is no payload and the response
completes before `sendReq` returns. -/
theorem sendReq_complete_iff {payloads : List Bytes} {heap : Store Bytes} {dataCap bufsCap : ℕ}
    {ls : List SendEvent} {s : SendState}
    (hrun : Run (SendMoves al)
      { pending := payloads, bufs := Bufs.empty heap dataCap bufsCap } ls s)
    (hfin : s.Finished) :
    ReplyComplete payloads s ↔ payloads = [] ∧ Precedes SendEvent.onComplete .ret ls := by
  have hinv := send_inv hrun
  have hover : s.fault = none → s.pc = .returned ∧ s.completed = true := by
    intro hnone
    rcases hfin with hfault | hdone
    · exact absurd hnone hfault
    · exact hdone
  constructor
  · intro hreply
    obtain ⟨hpc, hcompleted⟩ := hover hreply.noFault
    have hpending := (hinv.untouched hreply.noFault).1
    rw [hinv.drained hcompleted] at hpending
    exact ⟨hpending.symm, (hinv.returned hpc).mp hreply.inTime⟩
  · rintro ⟨rfl, hprec⟩
    have hnone : s.fault = none := by
      by_contra hfault
      exact hinv.faulted hfault rfl
    obtain ⟨-, hbufs, hlate⟩ := hinv.untouched hnone
    refine ⟨hnone, (hinv.returned (hover hnone).1).mpr hprec, hlate, ?_, ?_, ?_⟩
    · rw [hbufs]
      rfl
    · rw [hbufs]
      rfl
    · intro i p hp
      simp at hp

/-- An empty response that completes before `sendReq` returns. -/
theorem sendReq_complete_empty :
    ∃ s, exec (sendStep (Heap.bump Bytes)) [.subscribe, .onComplete, .ret]
        { pending := [], bufs := Bufs.empty ∅ 0 0 } = some s ∧
      (ReplyComplete [] s ↔ ([] : List Bytes) = [] ∧
        Precedes SendEvent.onComplete .ret [.ret, .onComplete, .subscribe]) :=
  ⟨_, rfl, sendReq_complete_iff (Heap.bump Bytes)
    (run_of_exec [SendEvent.subscribe, .onComplete, .ret] rfl) (.inr ⟨rfl, rfl⟩)⟩

/-- One payload, delivered in time: the process ends on a null pointer. -/
theorem sendReq_null_deref :
    ∃ ls s, Run (SendMoves (Heap.bump Bytes)) { pending := [[1]], bufs := Bufs.empty ∅ 0 0 } ls s ∧
      s.Finished ∧ ¬ ReplyComplete [[1]] s := by
  refine ⟨_, _, run_of_exec [.subscribe, .onNext] rfl, .inl ?_, fun hreply => ?_⟩
  · exact Option.some_ne_none Fault.nullDeref
  · exact absurd hreply.noFault (Option.some_ne_none Fault.nullDeref)

end RpcTransport.Rsocket

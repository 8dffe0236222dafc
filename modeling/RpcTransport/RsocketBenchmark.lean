import RpcTransport.ClientRuns
import RpcTransport.ProtoWire
import RpcTransport.RsocketClient

/-!
# Benchmarks over RSocket, and over nothing

`NullClient::sendReq` leaves the reply empty.  `RsocketClient::sendReq` leaves it empty too, or the
process ends on a null pointer, whatever the server sends and whenever it arrives.  So no benchmark
of one operation or more passes over either.

* `SendOutcome.no_reply` — how a call over RSocket can end;
* `benchmark_without_reply` — what `main` makes of it.
-/

namespace RpcTransport

open Heap (Store Allocator)
open Transition (Run run_of_exec)

/-- `NullClient::sendReq`. -/
def NullClient.sendReq (_ : Msg) : Except Fault Msg := .ok []

namespace Rsocket

open Buffers

/-- What the caller's views read as. -/
def SendState.reply (s : SendState) : Msg :=
  s.bufs.bufs.elems.map fun v => (readView s.bufs.heap v).getD []

/-- How the call of `sendReq` ends for its caller, when the server sends `payloads`: the process is
gone by then, or the call returns and the caller reads what is in the reply. -/
inductive SendOutcome (al : Allocator Bytes) (payloads : List Bytes) (heap : Store Bytes)
    (dataCap bufsCap : ℕ) : Except Fault Msg → Prop
  | faulted {ls : List SendEvent} {s : SendState} {e : Fault}
      (hrun : Run (SendMoves al)
        { pending := payloads, bufs := Bufs.empty heap dataCap bufsCap } ls s)
      (hfault : s.fault = some e) : SendOutcome al payloads heap dataCap bufsCap (.error e)
  | returned {ls : List SendEvent} {s s' : SendState}
      (hrun : Run (SendMoves al)
        { pending := payloads, bufs := Bufs.empty heap dataCap bufsCap } ls s)
      (hret : SendMoves al .ret s s') : SendOutcome al payloads heap dataCap bufsCap (.ok s'.reply)

variable {al : Allocator Bytes}

/-- The only fault is that of the callback. -/
theorem fault_nullDeref {payloads : List Bytes} {bufs : Bufs} {ls : List SendEvent} {s : SendState}
    (hrun : Run (SendMoves al) { pending := payloads, bufs } ls s) :
    ∀ e, s.fault = some e → e = .nullDeref := by
  refine hrun.invariant (P := fun s => ∀ e, s.fault = some e → e = .nullDeref)
    (fun e he => by cases he) ?_
  intro event a b ha hmove
  unfold SendMoves at hmove
  cases event with
  | subscribe =>
      rw [sendStep] at hmove
      split at hmove
      · cases hmove
        exact ha
      · cases hmove
  | onNext =>
      rw [sendStep] at hmove
      cases hpending : a.pending with
      | nil =>
          rw [hpending] at hmove
          cases hmove
      | cons p ps =>
          rw [hpending] at hmove
          dsimp only at hmove
          split at hmove
          · cases hmove
            intro e he
            exact (Option.some.inj he).symm
          · cases hmove
  | onComplete =>
      rw [sendStep] at hmove
      split at hmove
      · cases hmove
        exact ha
      · cases hmove
  | ret =>
      rw [sendStep] at hmove
      split at hmove
      · cases hmove
        exact ha
      · cases hmove

/-- **No call over RSocket ends with a reply.** -/
theorem SendOutcome.no_reply {payloads : List Bytes} {heap : Store Bytes} {dataCap bufsCap : ℕ}
    {outcome : Except Fault Msg} (h : SendOutcome al payloads heap dataCap bufsCap outcome) :
    outcome = .ok [] ∨ outcome = .error .nullDeref := by
  cases h with
  | faulted hrun hfault => exact .inr (by rw [fault_nullDeref hrun _ hfault])
  | returned hrun hret =>
      left
      unfold SendMoves at hret
      rw [sendStep] at hret
      split at hret
      · rename_i hcan
        cases hret
        obtain ⟨-, hbufs, -⟩ := (send_inv hrun).untouched hcan.2
        rw [SendState.reply, hbufs]
        rfl
      · cases hret

end Rsocket

/-! ### What the client's `main` makes of it -/

section Main

variable {D : Type} [IntCast D] [Sub D] [Div D]

/-- An operation without a reply is not accepted. -/
theorem not_accepted_of_no_reply {pb : Protobuf} {flags : ClientFlags} {op : OpEnv}
    (hsend : ∀ req, op.sendReq req = .ok [] ∨ ∃ e, op.sendReq req = .error e) :
    ¬ OpAccepted pb flags op := by
  rintro ⟨req, reply, us, hex⟩
  have hreply := hex.send
  rcases hsend req with hempty | ⟨e, herr⟩
  · rw [hempty] at hreply
    cases hreply
    obtain ⟨w, first, rest, hdr, h, hcons, -⟩ := hex.header
    cases hcons
  · rw [herr] at hreply
    cases hreply

/-- A run whose first operation is not accepted ends there. -/
theorem clientMain_first_failed (pb : Protobuf) (ovf : ℤ → ℤ) {flags : ClientFlags}
    {ops : ℕ → OpEnv} (hcount : 0 < flags.opCount.toInt) (hfail : ¬ OpAccepted pb flags (ops 0)) :
    (clientMain pb 0 ovf flags ops : ClientRun D).stdout = [] ∧
      (∃ e, (clientMain pb 0 ovf flags ops : ClientRun D).result = .error e) ∧
      (clientMain pb 0 ovf flags ops : ClientRun D).final.sent.length ≤ 1 := by
  obtain ⟨st, e, hop, hsent⟩ := clientOp_failed (D := D) ovf hfail {}
  obtain ⟨n, hn⟩ : ∃ n, flags.opCount.toInt.toNat = n + 1 :=
    ⟨flags.opCount.toInt.toNat - 1, by omega⟩
  have hloop : clientLoop pb 0 ovf flags ops 0 flags.opCount.toInt.toNat ({} : ClientState D)
      = (st, .error e) := by
    rw [hn, clientLoop, hop]
  rw [clientMain, hloop]
  refine ⟨rfl, ⟨e, rfl⟩, ?_⟩
  show st.sent.length ≤ 1
  rcases hsent with hnone | ⟨req, -, hone⟩
  · rw [hnone]
    exact Nat.zero_le 1
  · rw [hone]
    exact le_rfl

/-- **Over RSocket no benchmark passes**, whatever the server sends for each operation and in every
schedule of the callbacks; nor does one over the transport that is none.  The run ends at its first
operation, with at most one request sent and no statistics printed. -/
theorem benchmark_without_reply (pb : Protobuf) (ovf : ℤ → ℤ) (flags : ClientFlags)
    (ops : ℕ → OpEnv) (hcount : 0 < flags.opCount.toInt)
    (hsend : ∀ k req, (ops k).sendReq req = NullClient.sendReq req ∨
      ∃ al payloads heap dataCap bufsCap,
        Rsocket.SendOutcome al payloads heap dataCap bufsCap ((ops k).sendReq req)) :
    (clientMain pb 0 ovf flags ops : ClientRun D).stdout = [] ∧
      (∃ e, (clientMain pb 0 ovf flags ops : ClientRun D).result = .error e) ∧
      (clientMain pb 0 ovf flags ops : ClientRun D).final.sent.length ≤ 1 := by
  refine clientMain_first_failed pb ovf hcount (not_accepted_of_no_reply fun req => ?_)
  rcases hsend 0 req with hnull | ⟨al, payloads, heap, dataCap, bufsCap, houtcome⟩
  · exact .inl hnull
  · exact houtcome.no_reply.imp_right fun hfault => ⟨_, hfault⟩

end Main

/-- The first reply carries a payload and ends the process; there is none to the second request. -/
def replyThenNone (k : ℕ) : OpEnv where
  rnd := fun i j => UInt8.ofNat (i + j)
  startNs := 0
  endNs := 50000
  sendReq := fun _ => if k = 0 then .error .nullDeref else .ok []
  after := fun _ _ => 0

theorem benchmark_without_reply_two :
    (clientMain wireProtobuf 0 id ⟨.echo, 3, 2, 2⟩ replyThenNone : ClientRun ℚ).stdout = [] ∧
      (∃ e, (clientMain wireProtobuf 0 id ⟨.echo, 3, 2, 2⟩ replyThenNone : ClientRun ℚ).result
        = .error e) ∧
      (clientMain wireProtobuf 0 id ⟨.echo, 3, 2, 2⟩ replyThenNone
        : ClientRun ℚ).final.sent.length ≤ 1 := by
  refine benchmark_without_reply wireProtobuf id ⟨.echo, 3, 2, 2⟩ replyThenNone (by decide) ?_
  intro k req
  by_cases hk : k = 0
  · refine .inr ⟨Heap.bump Bytes, [[1]], ∅, 0, 0, ?_⟩
    rw [replyThenNone, if_pos hk]
    exact .faulted (run_of_exec [.subscribe, .onNext] rfl) rfl
  · left
    rw [replyThenNone, if_neg hk]
    rfl

end RpcTransport

import RpcTransport.StreamDeadline
import RpcTransport.StreamRuns

/-!
# When the server process goes down

The handlers of all gRPC and FlatBuffers calls run in one process.  An exception of the receive
function ends in `std::abort()`, and a message without data in a null dereference; either ends the
process, and with it the calls of everybody else.

* `down_cause` — what one of the calls must have done for the process to go down;
* `ServerDown.step` — nothing on the server moves from then on;
* `abort_ends_all` — a call that had no answer by then never gets one: its `sendReq` cannot return,
  and it can always be driven to its end.
-/

namespace RpcTransport

open Transition

variable {ι : Type} [DecidableEq ι] {x : ι → CallSetup}

/-- The server process is gone. -/
def ServerDown (s : ι → Session) : Prop := ∃ j, (s j).handler.pc.Down

/-! ### What holds of a call in every run -/

/-- Only a status with an error cuts a call off, `sendReq` returns with the server's status, and
throws with a status that has an error. -/
structure CallSound (s : Session) : Prop where
  broken : ∀ status, s.stream.broken = some status → status.code ≠ 0
  returned : s.client.pc = .returned → s.stream.status.isSome
  threw : ∀ what, s.client.pc = .threw what →
    ∃ status : Status, status.code ≠ 0 ∧ what = sendFailed status

namespace CallSound

variable {y : CallSetup} {s : Session}

theorem init : CallSound {} where
  broken := by intro status h; cases h
  returned := by intro h; cases h
  threw := by intro what h; cases h

theorem client_step (h : CallSound s) {c : SendReq} {st : Stream}
    (hstep : sendReqStep y s.client s.stream = some (c, st)) :
    CallSound { s with client := c, stream := st } := by
  cases sendReqStep_cases hstep with
  | @finish status hpc hfinal hcode =>
      refine ⟨h.broken, fun _ => ?_, by intro what hw; cases hw⟩
      -- a call that was cut off before the server's status came in has an error
      cases hstatus : s.stream.status with
      | some _ => rfl
      | none =>
          rw [Stream.final, hstatus, Option.none_or] at hfinal
          exact absurd hcode (h.broken status hfinal)
  | @finishThrow status hpc hfinal hcode =>
      refine ⟨h.broken, (by intro hr; cases hr), fun what hw => ⟨status, hcode, ?_⟩⟩
      cases hw
      rfl
  | read hpc _ _ =>
      exact ⟨h.broken, fun hr => absurd (hpc.symm.trans hr) (by simp),
        fun what hw => absurd (hpc.symm.trans hw) (by simp)⟩
  | _ => exact ⟨h.broken, (by intro hr; cases hr), by intro what hw; cases hw⟩

theorem handler_step (h : CallSound s) {k : ReqReply} {st : Stream}
    (hstep : reqReplyStep y s.handler s.stream = some (k, st)) :
    CallSound { s with handler := k, stream := st } := by
  cases reqReplyStep_cases hstep with
  | returnOk _ _ => exact ⟨h.broken, fun _ => rfl, h.threw⟩
  | _ => exact ⟨h.broken, h.returned, h.threw⟩

theorem lost (h : CallSound s) {status : Status} (hcode : status.code ≠ 0) :
    CallSound { s with stream := s.stream.fail status } where
  broken := by
    intro status' hs
    rcases Option.or_eq_some_iff.mp hs with hs | ⟨-, hs⟩
    · exact h.broken status' hs
    · cases hs
      exact hcode
  returned := h.returned
  threw := h.threw

theorem step {s s' : ι → Session} (h : ∀ j, CallSound (s j)) {i : ι}
    (hstep : SystemStep x i s s') : ∀ j, CallSound (s' j) := by
  intro j
  have hupdate : ∀ p, CallSound p → CallSound (Function.update s i p j) := by
    intro p hp
    rcases eq_or_ne j i with rfl | hne
    · rwa [Function.update_self]
    · rw [Function.update_of_ne hne]
      exact h j
  cases hstep with
  | client hc => exact hupdate _ ((h i).client_step hc)
  | handler _ hk => exact hupdate _ ((h i).handler_step hk)
  | lost status _ hcode => exact hupdate _ ((h i).lost hcode)

theorem of_run {ls : List ι} {s : ι → Session} (hrun : Run (SystemStep x) (fun _ => {}) ls s) :
    ∀ j, CallSound (s j) := by
  refine hrun.invariant (P := fun s => ∀ j, CallSound (s j)) (fun _ => init) ?_
  intro i a b h hstep
  exact step h hstep

end CallSound

/-! ### What brings the process down -/

/-- The handler has failed on what its client sent: the receive function refused the buffers the
handler had received, or a message had no data. -/
structure DownCause (y : CallSetup) (s : Session) : Prop where
  unsent : ∀ buf ∈ s.client.pc.unsent y.request, buf ∈ y.request
  toServer : ∀ m ∈ s.stream.toServer, ∃ buf ∈ y.request, m = y.transport.pack buf
  aborted : ∀ e, s.handler.pc = .aborted e →
    s.handler.rcvMsg ∈ s.handler.calls ∧ y.rcvFn s.handler.rcvMsg [] = .error e
  crashed : ∀ e, s.handler.pc = .crashed e → ∃ buf ∈ y.request, ¬ y.transport.Carries buf

namespace DownCause

variable {y : CallSetup} {s : Session}

theorem init : DownCause y {} where
  unsent := fun _ h => h
  toServer := by simp
  aborted := by intro e h; cases h
  crashed := by intro e h; cases h

theorem client_step (h : DownCause y s) {c : SendReq} {st : Stream}
    (hstep : sendReqStep y s.client s.stream = some (c, st)) :
    DownCause y { s with client := c, stream := st } := by
  have hunsent := h.unsent
  cases sendReqStep_cases hstep with
  | setDeadline hpc => exact ⟨fun _ hb => hb, h.toServer, h.aborted, h.crashed⟩
  | writeOver hpc _ =>
      rw [hpc] at hunsent
      exact ⟨fun b hb => hunsent b (List.mem_cons_of_mem _ hb), h.toServer, h.aborted, h.crashed⟩
  | @write buf bufs hpc _ _ =>
      rw [hpc] at hunsent
      refine ⟨fun b hb => hunsent b (List.mem_cons_of_mem _ hb), ?_, h.aborted, h.crashed⟩
      intro m hm
      rcases List.mem_append.mp hm with hm | hm
      · exact h.toServer m hm
      · exact ⟨buf, hunsent buf List.mem_cons_self, List.mem_singleton.mp hm⟩
  | reqReply hpc => exact ⟨fun _ hb => hb, h.toServer, h.aborted, h.crashed⟩
  | read hpc _ _ =>
      rw [hpc] at hunsent
      refine ⟨?_, h.toServer, h.aborted, h.crashed⟩
      rw [hpc]
      exact hunsent
  | _ => exact ⟨by simp [ClientPc.unsent], h.toServer, h.aborted, h.crashed⟩

theorem handler_step (h : DownCause y s) {k : ReqReply} {st : Stream}
    (hstep : reqReplyStep y s.handler s.stream = some (k, st)) :
    DownCause y { s with handler := k, stream := st } := by
  cases reqReplyStep_cases hstep with
  | read hpc hqueue _ =>
      refine ⟨h.unsent, fun m hm => h.toServer m ?_, fun e he => ?_, fun e he => ?_⟩
      · rw [hqueue]
        exact List.mem_cons_of_mem _ hm
      · exact absurd (hpc.symm.trans he) (by simp)
      · exact absurd (hpc.symm.trans he) (by simp)
  | @readNull m ms e hpc hqueue htake =>
      obtain ⟨buf, hbuf, rfl⟩ := h.toServer m (by rw [hqueue]; exact List.mem_cons_self)
      refine ⟨h.unsent, fun m hm => h.toServer m ?_, (by intro e he; cases he),
        fun _ _ => ⟨buf, hbuf, fun hcarries => ?_⟩⟩
      · rw [hqueue]
        exact List.mem_cons_of_mem _ hm
      · rw [StreamTransport.Carries, htake] at hcarries
        cases hcarries
  | abort hpc hrcv =>
      refine ⟨h.unsent, h.toServer, fun e he => ?_, by intro e he; cases he⟩
      cases he
      exact ⟨List.mem_append_right _ (List.mem_singleton_self _), hrcv⟩
  | _ =>
      exact ⟨h.unsent, h.toServer, (by intro e he; cases he), by intro e he; cases he⟩

theorem step {s s' : ι → Session} (h : ∀ j, DownCause (x j) (s j)) {i : ι}
    (hstep : SystemStep x i s s') : ∀ j, DownCause (x j) (s' j) := by
  intro j
  have hupdate : ∀ p, DownCause (x i) p → DownCause (x j) (Function.update s i p j) := by
    intro p hp
    rcases eq_or_ne j i with rfl | hne
    · rwa [Function.update_self]
    · rw [Function.update_of_ne hne]
      exact h j
  cases hstep with
  | client hc => exact hupdate _ ((h i).client_step hc)
  | handler _ hk => exact hupdate _ ((h i).handler_step hk)
  | lost status _ _ =>
      exact hupdate _ ⟨(h i).unsent, (h i).toServer, (h i).aborted, (h i).crashed⟩

end DownCause

/-- **What brings the process down.**  In every run that ends with the process gone, some call did
it: the receive function was called with buffers it refuses, or the call is of a request with a
buffer its transport does not carry. -/
theorem down_cause {ls : List ι} {s : ι → Session}
    (hrun : Run (SystemStep x) (fun _ => {}) ls s) (hdown : ServerDown s) :
    ∃ j, (∃ req e, req ∈ (s j).handler.calls ∧ (x j).rcvFn req [] = .error e) ∨
      ∃ buf ∈ (x j).request, ¬ (x j).transport.Carries buf := by
  have hcause : ∀ j, DownCause (x j) (s j) := by
    refine hrun.invariant (P := fun s => ∀ j, DownCause (x j) (s j)) (fun _ => DownCause.init) ?_
    intro i a b h hstep
    exact DownCause.step h hstep
  obtain ⟨j, hj⟩ := hdown
  refine ⟨j, ?_⟩
  cases hpc : (s j).handler.pc with
  | aborted e =>
      obtain ⟨hmem, hrcv⟩ := (hcause j).aborted e hpc
      exact .inl ⟨_, e, hmem, hrcv⟩
  | crashed e => exact .inr ((hcause j).crashed e hpc)
  | _ => simp [hpc, HandlerPc.Down] at hj

/-! ### What comes after -/

/-- Nothing on the server moves when the process is gone. -/
theorem ServerDown.step {s s' : ι → Session} (hdown : ServerDown s) {i : ι}
    (hstep : SystemStep x i s s') :
    ServerDown s' ∧ ∀ j, (s' j).handler = (s j).handler ∧
      (s' j).stream.status = (s j).stream.status := by
  have hkeep : ∀ p : Session, p.handler = (s i).handler → p.stream.status = (s i).stream.status →
      ∀ j, (Function.update s i p j).handler = (s j).handler ∧
        (Function.update s i p j).stream.status = (s j).stream.status := by
    intro p hhandler hstatus j
    rcases eq_or_ne j i with rfl | hne
    · simp only [Function.update_self]
      exact ⟨hhandler, hstatus⟩
    · simp only [Function.update_of_ne hne, and_self]
  have hall : ∀ j, (s' j).handler = (s j).handler ∧
      (s' j).stream.status = (s j).stream.status := by
    cases hstep with
    | @client c st hc =>
        refine hkeep _ rfl ?_
        cases sendReqStep_cases hc <;> rfl
    | handler hup _ =>
        obtain ⟨j, hj⟩ := hdown
        exact (hup j hj).elim
    | lost status _ _ => exact hkeep _ rfl rfl
  refine ⟨?_, hall⟩
  obtain ⟨j, hj⟩ := hdown
  refine ⟨j, ?_⟩
  rw [(hall j).1]
  exact hj

theorem ServerDown.run {s s' : ι → Session} (hdown : ServerDown s) {ls : List ι}
    (hrun : Run (SystemStep x) s ls s') :
    ServerDown s' ∧ ∀ j, (s' j).handler = (s j).handler ∧
      (s' j).stream.status = (s j).stream.status := by
  refine hrun.invariant (P := fun t => ServerDown t ∧ ∀ j, (t j).handler = (s j).handler ∧
    (t j).stream.status = (s j).stream.status) ⟨hdown, fun _ => ⟨rfl, rfl⟩⟩ ?_
  rintro i a b ⟨ha, hsame⟩ hstep
  obtain ⟨hb, hnext⟩ := ha.step hstep
  exact ⟨hb, fun j => ⟨(hnext j).1.trans (hsame j).1, (hnext j).2.trans (hsame j).2⟩⟩

/-- What the client has left to do on a call that is over. -/
def SendReq.rest (y : CallSetup) (c : SendReq) (st : Stream) : ℕ :=
  c.pc.work y.request.length st.toClient.length 0

/-- On a call that is over `sendReq` is not blocked, and every step brings it nearer to its end. -/
theorem SendReq.rest_lt_of_over {y : CallSetup} {c : SendReq} {st : Stream}
    (hover : st.final.isSome = true) (hpc : c.pc.ended = false) :
    ∃ c' st', sendReqStep y c st = some (c', st') ∧ st'.final.isSome = true ∧
      c'.rest y st' < c.rest y st := by
  obtain ⟨pc, context, reply⟩ := c
  cases pc with
  | reqReply => exact ⟨_, _, rfl, hover, by simp [SendReq.rest, ClientPc.work]⟩
  | setDeadline => exact ⟨_, _, rfl, hover, by simp [SendReq.rest, ClientPc.work]⟩
  | write bufs =>
      cases bufs with
      | nil => exact ⟨_, _, rfl, hover, by simp [SendReq.rest, ClientPc.work]⟩
      | cons buf bufs =>
          refine ⟨{ pc := .write bufs, context, reply }, st, ?_, hover, ?_⟩
          · simp [sendReqStep, hover]
          · simp [SendReq.rest, ClientPc.work]
  | read =>
      cases hqueue : st.toClient with
      | nil =>
          refine ⟨{ pc := .finish, context, reply }, st, ?_, hover, ?_⟩
          · simp [sendReqStep, hqueue, hover]
          · simp [SendReq.rest, ClientPc.work]
      | cons m ms =>
          cases htake : m.takeData with
          | ok buf =>
              refine ⟨{ pc := .read, context, reply := reply ++ [buf] },
                { st with toClient := ms }, ?_, hover, ?_⟩
              · simp [sendReqStep, hqueue, htake]
              · simp [SendReq.rest, ClientPc.work, hqueue]
          | error e =>
              refine ⟨{ pc := .crashed e, context, reply }, { st with toClient := ms }, ?_, hover,
                ?_⟩
              · simp [sendReqStep, hqueue, htake]
              · simp [SendReq.rest, ClientPc.work]
  | finish =>
      obtain ⟨status, hfinal⟩ := Option.isSome_iff_exists.mp hover
      by_cases hcode : status.code = 0
      · refine ⟨{ pc := .returned, context, reply }, st, ?_, hover, ?_⟩
        · simp [sendReqStep, hfinal, hcode]
        · simp [SendReq.rest, ClientPc.work]
      · refine ⟨{ pc := .threw (sendFailed status), context, reply }, st, ?_, hover, ?_⟩
        · simp [sendReqStep, hfinal, hcode]
        · simp [SendReq.rest, ClientPc.work]
  | returned => cases hpc
  | threw what => cases hpc
  | crashed e => cases hpc

/-- A call that is over ends for its client, by induction on what the client has left to do. -/
theorem exists_ended {i : ι} : ∀ (n : ℕ) (s : ι → Session), (s i).stream.final.isSome = true →
    (s i).client.rest (x i) (s i).stream ≤ n →
    ∃ ls t, Run (SystemStep x) s ls t ∧ (t i).client.pc.ended = true := by
  intro n
  induction n with
  | zero =>
      intro s hover hrest
      cases hended : (s i).client.pc.ended with
      | true => exact ⟨[], s, .refl, hended⟩
      | false =>
          obtain ⟨c, st, -, -, hlt⟩ := SendReq.rest_lt_of_over (y := x i) hover hended
          omega
  | succ n ih =>
      intro s hover hrest
      cases hended : (s i).client.pc.ended with
      | true => exact ⟨[], s, .refl, hended⟩
      | false =>
          obtain ⟨c, st, hstep, hover', hlt⟩ := SendReq.rest_lt_of_over (y := x i) hover hended
          have hself : Function.update s i { s i with client := c, stream := st } i
              = { s i with client := c, stream := st } := Function.update_self ..
          obtain ⟨ls, t, hrun, ht⟩ := ih
            (Function.update s i { s i with client := c, stream := st })
            (by rw [hself]; exact hover')
            (by rw [hself]; exact Nat.le_of_lt_succ (hlt.trans_le hrest))
          exact ⟨_, t, (Run.refl.tail (SystemStep.client hstep)).append hrun, ht⟩

/-- What becomes of call `i` between a state `s` with the process gone and a later state `s'`. -/
structure AfterAbort (x : ι → CallSetup) (i : ι) (s s' : ι → Session) : Prop where
  handler : (s' i).handler = (s i).handler
  unanswered : (s i).stream.status = none → (s' i).client.pc ≠ .returned
  threw : ∀ what, (s' i).client.pc = .threw what →
    ∃ status : Status, status.code ≠ 0 ∧ what = sendFailed status
  ends : ∃ ls t, Run (SystemStep x) s' ls t ∧ (t i).client.pc.ended = true

/-- **One failure ends all calls.**  Once the process is gone, in every run on from there and for
every call: the receive function is not called any more; a call without the server's status by then
never returns, and where it throws, it is with an error status; and no call hangs, each can be
driven to its end. -/
theorem abort_ends_all {ls : List ι} {s : ι → Session}
    (hrun : Run (SystemStep x) (fun _ => {}) ls s) (hdown : ServerDown s) {ls' : List ι}
    {s' : ι → Session} (hlater : Run (SystemStep x) s ls' s') (i : ι) : AfterAbort x i s s' := by
  obtain ⟨hdown', hsame⟩ := hdown.run hlater
  have hsound := CallSound.of_run (hrun.append hlater)
  refine ⟨(hsame i).1, fun hnone hreturned => ?_, (hsound i).threw, ?_⟩
  · have hsome := (hsound i).returned hreturned
    rw [(hsame i).2, hnone] at hsome
    cases hsome
  · -- the call breaks off, and then the client goes on alone
    have hself : Function.update s' i
        { s' i with stream := (s' i).stream.fail ⟨14, "Socket closed"⟩ } i
          = { s' i with stream := (s' i).stream.fail ⟨14, "Socket closed"⟩ } :=
      Function.update_self ..
    have hover : ((s' i).stream.fail ⟨14, "Socket closed"⟩).final.isSome = true := by
      simp [Stream.final, Stream.fail]
    obtain ⟨ls, t, hrun', ht⟩ := exists_ended (x := x) (i := i) _ (Function.update s' i
      { s' i with stream := (s' i).stream.fail ⟨14, "Socket closed"⟩ })
      (by rw [hself]; exact hover) le_rfl
    exact ⟨_, t, (Run.refl.tail (SystemStep.lost _ hdown' (by decide))).append hrun', ht⟩

/-! ### A client that sends nothing -/

/-- A call of no buffers, which the receive function refuses, beside a call of one. -/
def oneRefused (b : Bool) : CallSetup where
  transport := .grpc
  toServerWindow := 1
  toClientWindow := 1
  now := 0
  request := if b then [] else [[1]]
  rcvFn := fun req _ => if req = [] then .error (.exception "empty request") else .ok req

/-- The call of no buffers brings the process down when the other one has sent its buffer, which
then breaks off. -/
theorem oneRefused_down : ∃ ls s ls' s', Run (SystemStep oneRefused) (fun _ => {}) ls s ∧
    ServerDown s ∧ (s false).client.pc = .write [] ∧ Run (SystemStep oneRefused) s ls' s' ∧
    (s' false).client.pc = .threw "send failed: (14) Socket closed" := by
  have hcreated : Run (SystemStep oneRefused) (fun _ => {}) _ _ :=
    ((Run.refl.tail (.client (i := true) rfl)).tail (.client (i := true) rfl)).tail
      (.client (i := true) rfl)
  have hsent := ((hcreated.tail (.client (i := false) rfl)).tail (.client (i := false) rfl)).tail
    (.client (i := false) rfl)
  have hread := hsent.tail (.handler (i := true) (fun j => by cases j <;> exact id) rfl)
  have hend := hread.tail (.handler (i := true) (fun j => by cases j <;> exact id) rfl)
  have habort := hend.tail (.handler (i := true) (fun j => by cases j <;> exact id) rfl)
  exact ⟨_, _, _, _, habort, ⟨true, trivial⟩, rfl,
    -- the half-close, the loss, and the two steps that the client makes on a call that is over
    (((Run.refl.tail (.client (i := false) rfl)).tail
      (.lost (i := false) ⟨14, "Socket closed"⟩ ⟨true, trivial⟩ (by decide))).tail
      (.client (i := false) rfl)).tail (.client (i := false) rfl), rfl⟩

theorem down_cause_refused : ∃ ls s, Run (SystemStep oneRefused) (fun _ => {}) ls s ∧
    ∃ j, (∃ req e, req ∈ (s j).handler.calls ∧ (oneRefused j).rcvFn req [] = .error e) ∨
      ∃ buf ∈ (oneRefused j).request, ¬ (oneRefused j).transport.Carries buf := by
  obtain ⟨ls, s, -, -, hrun, hdown, -⟩ := oneRefused_down
  exact ⟨ls, s, hrun, down_cause hrun hdown⟩

theorem abort_ends_all_refused : ∃ ls s ls' s', Run (SystemStep oneRefused) (fun _ => {}) ls s ∧
    (s false).client.pc = .write [] ∧ Run (SystemStep oneRefused) s ls' s' ∧
    (s' false).client.pc = .threw "send failed: (14) Socket closed" ∧
    AfterAbort oneRefused false s s' := by
  obtain ⟨ls, s, ls', s', hrun, hdown, hmid, hlater, hthrew⟩ := oneRefused_down
  exact ⟨ls, s, ls', s', hrun, hmid, hlater, hthrew, abort_ends_all hrun hdown hlater false⟩

end RpcTransport

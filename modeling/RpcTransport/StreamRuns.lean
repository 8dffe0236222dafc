import RpcTransport.Stream
import RpcTransport.Lib.Fifo
import RpcTransport.Lib.RemoteCall

/-!
# Fault-free runs of the stream transports

The client writes everything, half-closes, and only then reads; the server reads to the end, and
only then writes.  `SessionInv` says where the buffers of the request and of the answer are at each
point of the two programs.  Each step of either side keeps it (`SessionInv.client_step`,
`SessionInv.handler_step`), is a move of the abstract remote call or none (`SessionInv.view_step`)
and lowers `Session.work`; and until `sendReq` has returned one of the two sides can move
(`SessionInv.progress`).  Calls on one server do not touch each other, so all of this holds of any
number of them side by side (`stream_delivers`).
-/

namespace RpcTransport

open Fifo (Passing)

/-! ### Where the two programs stand -/

/-- The buffers of the request the client has not written yet. -/
def ClientPc.unsent (request : Msg) : ClientPc → Msg
  | .reqReply => request
  | .setDeadline => request
  | .write bufs => bufs
  | _ => []

/-- The client has half-closed the stream. -/
def ClientPc.closed : ClientPc → Bool
  | .reqReply => false
  | .setDeadline => false
  | .write _ => false
  | _ => true

theorem ClientPc.unsent_of_closed {request : Msg} {pc : ClientPc} (h : pc.closed = true) :
    pc.unsent request = [] := by
  cases pc <;> first | rfl | cases h

/-- The client has read to the end. -/
def ClientPc.atEnd : ClientPc → Bool
  | .finish => true
  | .returned => true
  | _ => false

/-- The client threw or crashed. -/
def ClientPc.failed : ClientPc → Bool
  | .threw _ => true
  | .crashed _ => true
  | _ => false

/-- The buffers of the answer the handler has not written yet. -/
def HandlerPc.unsent (rsp : Msg) : HandlerPc → Msg
  | .write bufs => bufs
  | .returned => []
  | _ => rsp

/-- The handler has read to the end. -/
def HandlerPc.heard : HandlerPc → Bool
  | .rcvFn => true
  | .write _ => true
  | .returned => true
  | _ => false

/-- The handler has its answer. -/
def HandlerPc.served : HandlerPc → Bool
  | .write _ => true
  | .returned => true
  | _ => false

/-- The transport carries a buffer: what it packs can be taken out again. -/
def StreamTransport.Carries (t : StreamTransport) (buf : DataBuf) : Prop :=
  (t.pack buf).takeData = .ok buf

theorem StreamTransport.carries_of_ne_nil (t : StreamTransport) {buf : DataBuf} (h : buf ≠ []) :
    t.Carries buf := by
  cases t with
  | grpc => rw [Carries, pack, grpcMsg, if_neg h, WireMsg.takeData]
  | flatbuffers => rfl

theorem StreamTransport.flatbuffers_carries (buf : DataBuf) :
    StreamTransport.flatbuffers.Carries buf := rfl

/-! ### What is left to do, and what can be seen -/

/-- The steps the client has left, for a request of `n` and an answer of `m` buffers. -/
def ClientPc.work (n m received : ℕ) : ClientPc → ℕ
  | .reqReply => n + m + 5
  | .setDeadline => n + m + 4
  | .write bufs => bufs.length + m + 3
  | .read => m - received + 2
  | .finish => 1
  | _ => 0

/-- The steps the handler has left. -/
def HandlerPc.work (n m received : ℕ) : HandlerPc → ℕ
  | .idle => n + m + 4
  | .read => n - received + m + 3
  | .rcvFn => m + 2
  | .write bufs => bufs.length + 1
  | _ => 0

/-- The steps the two sides have left. -/
def Session.work (x : CallSetup) (rsp : Msg) (s : Session) : ℕ :=
  s.client.pc.work x.request.length rsp.length s.client.reply.length
    + s.handler.pc.work x.request.length rsp.length s.handler.rcvMsg.length

/-- What can be seen of the call from outside. -/
def Session.view (s : Session) : RemoteCall.State DataBuf where
  calls := s.handler.calls
  reply := s.client.reply
  returned := decide (s.client.pc = .returned)

/-! ### The invariant -/

/-- **The invariant of a fault-free call** whose server answers `rsp`. -/
structure SessionInv (x : CallSetup) (rsp : Msg) (s : Session) : Prop where
  broken : s.stream.broken = none
  created : s.client.pc ≠ .reqReply → s.stream.created = true
  closed : s.stream.halfClosed = s.client.pc.closed
  request : Passing x.transport.pack x.request s.handler.rcvMsg s.stream.toServer
    (s.client.pc.unsent x.request)
  heard : s.handler.pc.heard = true → s.handler.rcvMsg = x.request
  calls : s.handler.calls = if s.handler.pc.served then [x.request] else []
  reply : Passing x.transport.pack rsp s.client.reply s.stream.toClient (s.handler.pc.unsent rsp)
  status : s.stream.status = if s.handler.pc = .returned then some {} else none
  up : ¬ s.handler.pc.Down
  sound : s.client.pc.failed = false
  atEnd : s.client.pc.atEnd = true → s.handler.pc = .returned ∧ s.client.reply = rsp

namespace SessionInv

variable {x : CallSetup} {rsp : Msg} {s : Session}

theorem init (x : CallSetup) (rsp : Msg) : SessionInv x rsp {} where
  broken := rfl
  created := fun h => absurd rfl h
  closed := rfl
  request := Passing.start _
  heard := by intro h; cases h
  calls := rfl
  reply := Passing.start _
  status := rfl
  up := id
  sound := rfl
  atEnd := by intro h; cases h

theorem final_eq (h : SessionInv x rsp s) :
    s.stream.final = if s.handler.pc = .returned then some {} else none := by
  rw [Stream.final, h.status, h.broken]
  split <;> rfl

theorem final_isSome (h : SessionInv x rsp s) :
    s.stream.final.isSome = true ↔ s.handler.pc = .returned := by
  rw [h.final_eq]
  split <;> simp [*]

/-- Past its first line the client has created the call. -/
theorem created_of (h : SessionInv x rsp s) {pc : ClientPc} (hpc : s.client.pc = pc)
    (hne : pc ≠ .reqReply) : s.stream.created = true :=
  h.created (by rw [hpc]; exact hne)

/-- Before the handler returns the client has not read to the end. -/
theorem not_atEnd (h : SessionInv x rsp s) {pc : HandlerPc} (hpc : s.handler.pc = pc)
    (hne : pc ≠ .returned) : ¬ s.client.pc.atEnd = true := by
  intro hend
  exact hne (hpc.symm.trans (h.atEnd hend).1)

/-- While a buffer is still to be written the handler is reading. -/
theorem not_heard (h : SessionInv x rsp s) {buf : DataBuf} {bufs : Msg}
    (hpc : s.client.pc = .write (buf :: bufs)) : s.handler.pc.heard = false := by
  by_contra hheard
  have hlen := h.request.length_eq
  rw [h.heard (by simpa using hheard), hpc, ClientPc.unsent, List.length_cons] at hlen
  omega

/-- When the handler has returned, all the answer has been written. -/
theorem reply_eq (h : SessionInv x rsp s) (hreturned : s.handler.pc = .returned)
    (hempty : s.stream.toClient = []) : s.client.reply = rsp := by
  have hreply := h.reply
  rw [hreturned, hempty] at hreply
  rw [hreply.whole_eq]
  exact (List.append_nil _).symm

/-- Before the handler is done reading nothing of the answer is on its way. -/
theorem served_of_toClient (h : SessionInv x rsp s) {m : WireMsg} {ms : List WireMsg}
    (hqueue : s.stream.toClient = m :: ms) : s.handler.calls = [x.request] := by
  have hlen := h.reply.length_eq
  rw [hqueue, List.length_cons] at hlen
  have hserved : s.handler.pc.served = true := by
    cases hpc : s.handler.pc <;> rw [hpc] at hlen <;>
      first | rfl | (simp only [HandlerPc.unsent] at hlen; omega)
  rw [h.calls, if_pos hserved]

/-- What a step of a fault-free call does: it keeps the invariant, leaves less to do, and is a move
of the remote call or none. -/
structure Advance (x : CallSetup) (rsp : Msg) (s s' : Session) : Prop where
  inv : SessionInv x rsp s'
  work_lt : s'.work x rsp < s.work x rsp
  view_step : RemoteCall.Step x.request rsp s.view s'.view ∨ s'.view = s.view

/-- **A step of the client.** -/
theorem client_step (h : SessionInv x rsp s) (hcarry : ∀ buf ∈ rsp, x.transport.Carries buf)
    {c : SendReq} {st : Stream} (hstep : sendReqStep x s.client s.stream = some (c, st)) :
    Advance x rsp s { s with client := c, stream := st } := by
  have hrequest := h.request
  have hclosed := h.closed
  cases sendReqStep_cases hstep with
  | reqReply hpc =>
      rw [hpc] at hrequest hclosed
      refine ⟨{ h with
          created := fun _ => rfl
          closed := hclosed
          request := hrequest
          sound := rfl
          atEnd := fun hover => by cases hover }, ?_, .inr ?_⟩
      · simp only [Session.work, hpc, ClientPc.work]
        omega
      · simp [Session.view, hpc]
  | setDeadline hpc =>
      rw [hpc] at hrequest hclosed
      refine ⟨{ h with
          created := fun _ => h.created_of hpc ClientPc.noConfusion
          closed := hclosed
          request := hrequest
          sound := rfl
          atEnd := fun hover => by cases hover }, ?_, .inr ?_⟩
      · simp only [Session.work, hpc, ClientPc.work]
        omega
      · simp [Session.view, hpc]
  | writeOver hpc hfinal =>
      -- the call cannot be over, since the handler is still reading
      have hheard := h.not_heard hpc
      rw [h.final_isSome.mp hfinal] at hheard
      cases hheard
  | write hpc _ _ =>
      rw [hpc] at hrequest hclosed
      refine ⟨{ h with
          created := fun _ => h.created_of hpc ClientPc.noConfusion
          closed := hclosed
          request := hrequest.push
          sound := rfl
          atEnd := fun hover => by cases hover }, ?_, .inr ?_⟩
      · simp only [Session.work, hpc, ClientPc.work, List.length_cons]
        omega
      · simp [Session.view, hpc]
  | writesDone hpc =>
      rw [hpc] at hrequest
      refine ⟨{ h with
          created := fun _ => h.created_of hpc ClientPc.noConfusion
          closed := by rw [h.broken]; rfl
          request := hrequest
          sound := rfl
          atEnd := fun hover => by cases hover }, ?_, .inr ?_⟩
      · simp only [Session.work, hpc, ClientPc.work, List.length_nil]
        omega
      · simp [Session.view, hpc]
  | @read _ ms _ hpc hqueue htake =>
      have hreply := h.reply
      rw [hqueue] at hreply
      obtain ⟨buf, hmem, rfl, hreply'⟩ := hreply.pop
      obtain rfl := Except.ok.inj ((hcarry buf hmem).symm.trans htake)
      have hlen := hreply'.length_eq
      rw [List.length_append, List.length_singleton] at hlen
      refine ⟨{ h with
          reply := hreply'
          atEnd := fun hov => by rw [hpc] at hov; cases hov }, ?_, .inl ?_⟩
      · simp only [Session.work, hpc, ClientPc.work, List.length_append, List.length_singleton]
        omega
      · have hview := RemoteCall.Step.deliver (s := s.view) (b := buf)
          (h.served_of_toClient hqueue) (by simp [Session.view, hpc]) hreply'.prefix_of
        exact hview
  | readNull hpc hqueue htake =>
      -- the handler has packed a buffer that the transport carries
      obtain ⟨buf, hmem, rfl⟩ := h.reply.mem_queue (by rw [hqueue]; exact List.mem_cons_self)
      exact nomatch (hcarry buf hmem).symm.trans htake
  | readEnd hpc hempty hfinal =>
      have hreturned := h.final_isSome.mp hfinal
      rw [hpc] at hrequest hclosed
      refine ⟨{ h with
          created := fun _ => h.created_of hpc ClientPc.noConfusion
          closed := hclosed
          request := hrequest
          sound := rfl
          atEnd := fun _ => ⟨hreturned, h.reply_eq hreturned hempty⟩ }, ?_, .inr ?_⟩
      · simp only [Session.work, hpc, ClientPc.work]
        omega
      · simp [Session.view, hpc]
  | finish hpc _ _ =>
      have hover := h.atEnd (by rw [hpc]; rfl)
      rw [hpc] at hrequest hclosed
      refine ⟨{ h with
          created := fun _ => h.created_of hpc ClientPc.noConfusion
          closed := hclosed
          request := hrequest
          sound := rfl
          atEnd := fun _ => hover }, ?_, .inl ?_⟩
      · simp only [Session.work, hpc, ClientPc.work]
        omega
      · have hcalls : s.view.calls = [x.request] := by
          show s.handler.calls = _
          rw [h.calls, hover.1]
          rfl
        exact RemoteCall.Step.finish hcalls hover.2
  | finishThrow hpc hfinal hcode =>
      -- the status of a handler that has returned is `OK`
      rw [h.final_eq, if_pos (h.atEnd (by rw [hpc]; rfl)).1] at hfinal
      obtain rfl := Option.some.inj hfinal
      exact (hcode rfl).elim

/-- **A step of the handler.** -/
theorem handler_step (h : SessionInv x rsp s) (hcarry : ∀ buf ∈ x.request, x.transport.Carries buf)
    (hrcv : x.rcvFn x.request [] = .ok rsp) {k : ReqReply} {st : Stream}
    (hstep : reqReplyStep x s.handler s.stream = some (k, st)) :
    Advance x rsp s { s with handler := k, stream := st } := by
  have hbroken : ¬ s.stream.broken.isSome = true := by rw [h.broken]; exact Bool.noConfusion
  have hreply := h.reply
  have hstatus := h.status
  have hcalls := h.calls
  cases reqReplyStep_cases hstep with
  | start hpc _ =>
      rw [hpc] at hreply hstatus hcalls
      refine ⟨{ h with
          heard := fun hheard => by cases hheard
          calls := hcalls
          reply := hreply
          status := hstatus
          up := id
          atEnd := fun hend => absurd hend (h.not_atEnd hpc HandlerPc.noConfusion) },
        ?_, .inr rfl⟩
      simp only [Session.work, hpc, HandlerPc.work]
      omega
  | read hpc hqueue htake =>
      have hrequest := h.request
      rw [hqueue] at hrequest
      obtain ⟨buf, hmem, rfl, hrequest'⟩ := hrequest.pop
      obtain rfl := Except.ok.inj ((hcarry buf hmem).symm.trans htake)
      have hlen := hrequest'.length_eq
      rw [List.length_append, List.length_singleton] at hlen
      refine ⟨{ h with
          request := hrequest'
          heard := fun hheard => by rw [hpc] at hheard; cases hheard }, ?_, .inr rfl⟩
      simp only [Session.work, hpc, HandlerPc.work, List.length_append, List.length_singleton]
      omega
  | readNull hpc hqueue htake =>
      obtain ⟨buf, hmem, rfl⟩ := h.request.mem_queue (by rw [hqueue]; exact List.mem_cons_self)
      exact nomatch (hcarry buf hmem).symm.trans htake
  | readEnd hpc hempty hend =>
      rw [hpc] at hreply hstatus hcalls
      rw [h.broken, h.closed, Option.isSome_none, Bool.or_false] at hend
      -- the client has half-closed, so nothing is left to be written
      have hrequest := h.request
      rw [hempty, ClientPc.unsent_of_closed hend] at hrequest
      refine ⟨{ h with
          heard := fun _ => by rw [hrequest.whole_eq, List.append_nil]
          calls := hcalls
          reply := hreply
          status := hstatus
          up := id
          atEnd := fun hend => absurd hend (h.not_atEnd hpc HandlerPc.noConfusion) },
        ?_, .inr rfl⟩
      simp only [Session.work, hpc, HandlerPc.work]
      omega
  | rcvFn hpc hrcv' =>
      have hheard := h.heard (by rw [hpc]; rfl)
      rw [hheard, hrcv] at hrcv'
      obtain rfl := Except.ok.inj hrcv'
      rw [hpc] at hreply hstatus hcalls
      refine ⟨{ h with
          heard := fun _ => hheard
          calls := by rw [hcalls, hheard]; rfl
          reply := hreply
          status := hstatus
          up := id
          atEnd := fun hend => absurd hend (h.not_atEnd hpc HandlerPc.noConfusion) },
        ?_, .inl ?_⟩
      · simp only [Session.work, hpc, HandlerPc.work]
        omega
      · have hview : RemoteCall.Step x.request rsp s.view { s.view with calls := [x.request] } :=
          .serve hcalls
        have heq : s.handler.calls ++ [s.handler.rcvMsg] = [x.request] := by
          rw [hcalls, hheard]
          rfl
        simpa only [Session.view, heq] using hview
  | abort hpc hrcv' =>
      rw [h.heard (by rw [hpc]; rfl), hrcv] at hrcv'
      cases hrcv'
  | writeBroken _ hbroken' => exact (hbroken hbroken').elim
  | write hpc _ _ =>
      have hheard := h.heard (by rw [hpc]; rfl)
      rw [hpc] at hreply hstatus hcalls
      refine ⟨{ h with
          heard := fun _ => hheard
          calls := hcalls
          reply := hreply.push
          status := hstatus
          up := id
          atEnd := fun hend => absurd hend (h.not_atEnd hpc HandlerPc.noConfusion) },
        ?_, .inr rfl⟩
      simp only [Session.work, hpc, HandlerPc.work, List.length_cons]
      omega
  | returnBroken _ hbroken' => exact (hbroken hbroken').elim
  | returnOk hpc _ =>
      have hheard := h.heard (by rw [hpc]; rfl)
      rw [hpc] at hreply hcalls
      refine ⟨{ h with
          heard := fun _ => hheard
          calls := hcalls
          reply := hreply
          status := rfl
          up := id
          atEnd := fun hend => absurd hend (h.not_atEnd hpc HandlerPc.noConfusion) },
        ?_, .inr rfl⟩
      simp only [Session.work, hpc, HandlerPc.work, List.length_nil]
      omega

/-- A handler that is not done reading can move when there is something to read, or the end. -/
theorem handler_reads (h : SessionInv x rsp s) (hheard : s.handler.pc.heard = false)
    (hcreated : s.stream.created = true)
    (hinput : s.stream.toServer ≠ [] ∨ s.stream.halfClosed = true) :
    (reqReplyStep x s.handler s.stream).isSome = true := by
  have hup := h.up
  unfold reqReplyStep
  cases hpc : s.handler.pc with
  | idle => simp [hcreated]
  | read =>
      cases hqueue : s.stream.toServer with
      | nil => simp [hinput.resolve_left (not_not.mpr hqueue)]
      | cons m ms => cases htake : m.takeData <;> simp [htake]
  | rcvFn => rw [hpc] at hheard; cases hheard
  | write bufs => rw [hpc] at hheard; cases hheard
  | returned => rw [hpc] at hheard; cases hheard
  | aborted e => rw [hpc] at hup; exact (hup trivial).elim
  | crashed e => rw [hpc] at hup; exact (hup trivial).elim

/-- A handler that is done reading can move unless it has returned: nothing it has written is
waiting, so its window is open. -/
theorem handler_writes (h : SessionInv x rsp s) (hwindow : 0 < x.toClientWindow)
    (hheard : s.handler.pc.heard = true) (hne : s.handler.pc ≠ .returned)
    (hempty : s.stream.toClient = []) :
    (reqReplyStep x s.handler s.stream).isSome = true := by
  unfold reqReplyStep
  cases hpc : s.handler.pc with
  | idle => rw [hpc] at hheard; cases hheard
  | read => rw [hpc] at hheard; cases hheard
  | rcvFn => cases x.rcvFn s.handler.rcvMsg [] <;> simp
  | write bufs => cases bufs <;> simp [h.broken, hempty, hwindow]
  | returned => exact (hne hpc).elim
  | aborted e => rw [hpc] at hheard; cases hheard
  | crashed e => rw [hpc] at hheard; cases hheard

/-- **No deadlock.**  Until `sendReq` has returned, the client or the handler can move. -/
theorem progress (h : SessionInv x rsp s) (hto : 0 < x.toServerWindow)
    (hfrom : 0 < x.toClientWindow) (hnot : s.client.pc ≠ .returned) :
    (sendReqStep x s.client s.stream).isSome = true ∨
      (reqReplyStep x s.handler s.stream).isSome = true := by
  have hsound := h.sound
  have hclosed := h.closed
  cases hpc : s.client.pc with
  | reqReply => exact .inl (by simp [sendReqStep, hpc])
  | setDeadline => exact .inl (by simp [sendReqStep, hpc])
  | write bufs =>
      cases bufs with
      | nil => exact .inl (by simp [sendReqStep, hpc])
      | cons buf bufs =>
          by_cases hfull : s.stream.toServer.length < x.toServerWindow
          · refine .inl ?_
            simp only [sendReqStep, hpc, if_pos hfull]
            split <;> rfl
          · -- the window is full, so there is something for the handler to read
            refine .inr (h.handler_reads (h.not_heard hpc) ?_ (.inl fun hnil => ?_))
            · exact h.created (by rw [hpc]; exact ClientPc.noConfusion)
            · rw [hnil, List.length_nil] at hfull
              exact hfull hto
  | read =>
      rw [hpc] at hclosed
      cases hqueue : s.stream.toClient with
      | cons m ms =>
          refine .inl ?_
          cases htake : m.takeData <;> simp [sendReqStep, hpc, hqueue, htake]
      | nil =>
          by_cases hreturned : s.handler.pc = .returned
          · refine .inl ?_
            simp [sendReqStep, hpc, hqueue, h.final_isSome.mpr hreturned]
          · -- the client waits for the handler, which has all it needs to go on
            refine .inr ?_
            cases hheard : s.handler.pc.heard with
            | true => exact h.handler_writes hfrom hheard hreturned hqueue
            | false =>
                refine h.handler_reads hheard ?_ (.inr hclosed)
                exact h.created (by rw [hpc]; exact ClientPc.noConfusion)
  | finish =>
      have hover := h.atEnd (by rw [hpc]; rfl)
      exact .inl (by simp [sendReqStep, hpc, h.final_eq, hover.1])
  | returned => exact (hnot hpc).elim
  | threw what => rw [hpc] at hsound; cases hsound
  | crashed e => rw [hpc] at hsound; cases hsound

end SessionInv

/-! ### Calls side by side -/

/-- The standing assumptions on a call whose server answers `rsp`: windows of at least one message,
a receive function that returns, and buffers that the transport carries. -/
structure CallSetup.Answers (x : CallSetup) (rsp : Msg) : Prop where
  toServer : 0 < x.toServerWindow
  toClient : 0 < x.toClientWindow
  returns : x.rcvFn x.request [] = .ok rsp
  carries_request : ∀ buf ∈ x.request, x.transport.Carries buf
  carries_rsp : ∀ buf ∈ rsp, x.transport.Carries buf

section System

open Transition

variable {ι : Type} [DecidableEq ι] {x : ι → CallSetup} {rsp : ι → Msg}

/-- While all calls are sound no server is down, and a move of call `i` is one of its own steps. -/
theorem systemStep_local (hx : ∀ i, (x i).Answers (rsp i)) :
    Local (fun _ => True) (fun i s => s i) (fun i => SessionInv (x i) (rsp i))
      (fun i => SessionInv.Advance (x i) (rsp i)) (SystemStep x) := by
  intro i s s' _ hs hstep
  refine ⟨trivial, ?_⟩
  cases hstep with
  | client h =>
      refine ⟨?_, fun j hne => Function.update_of_ne hne _ _⟩
      simp only [Function.update_self]
      exact (hs i).client_step (hx i).carries_rsp h
  | handler hup h =>
      refine ⟨?_, fun j hne => Function.update_of_ne hne _ _⟩
      simp only [Function.update_self]
      exact (hs i).handler_step (hx i).carries_request (hx i).returns h
  | lost status hdown hcode =>
      obtain ⟨j, hj⟩ := hdown
      exact ((hs j).up hj).elim

omit [DecidableEq ι] in
theorem systemInit (x : ι → CallSetup) (rsp : ι → Msg) :
    True ∧ ∀ j, SessionInv (x j) (rsp j) {} := ⟨trivial, fun _ => SessionInv.init _ _⟩

/-- The invariant of every call, at any time. -/
theorem stream_inv (hx : ∀ i, (x i).Answers (rsp i)) {s : ι → Session} {ls : List ι}
    (hrun : Run (SystemStep x) (fun _ => {}) ls s) (i : ι) : SessionInv (x i) (rsp i) (s i) :=
  (hrun.invariant (systemInit x rsp)
    ((systemStep_local hx).invariant fun _ _ _ _ h => h.inv)).2 i

/-- **Every call refines the abstract remote call.** -/
theorem stream_refines (hx : ∀ i, (x i).Answers (rsp i)) {s : ι → Session} {ls : List ι}
    (hrun : Run (SystemStep x) (fun _ => {}) ls s) (i : ι) :
    RemoteCall.Consistent (x i).request (rsp i) (s i).view := by
  refine RemoteCall.Consistent.of_reachable ?_
  exact (systemStep_local hx).refines (fun _ _ _ _ h => h.inv) hrun (systemInit x rsp) i
    Session.view (fun _ _ _ h => h.view_step)

/-- **Every call is delivered**: it takes boundedly many steps, is never stuck, and returns with the
answer to its own request, for which the receive function was called exactly once. -/
theorem stream_delivers (hx : ∀ i, (x i).Answers (rsp i)) (i : ι) :
    Delivers (SystemStep x) (fun _ => {}) i (2 * ((x i).request.length + (rsp i).length) + 9)
      (fun s => (s i).client.pc = .returned)
      (fun s => (s i).handler.calls = [(x i).request] ∧ (s i).client.reply = rsp i) := by
  have hlocal := systemStep_local hx
  refine ⟨fun ls s hrun => ?_, fun ls s hrun hnot => ?_, fun ls s hrun hdone => ?_⟩
  · have hle := hlocal.count_le (fun _ _ _ _ h => h.inv) hrun (systemInit x rsp) i
      (Session.work (x i) (rsp i)) (fun _ _ _ h => h.work_lt)
    have hbound : Session.work (x i) (rsp i) {}
        = 2 * ((x i).request.length + (rsp i).length) + 9 := by
      simp only [Session.work, ClientPc.work, HandlerPc.work]
      omega
    exact hle.trans hbound.le
  · have hs := stream_inv hx hrun
    rcases (hs i).progress (hx i).toServer (hx i).toClient hnot with h | h
    · obtain ⟨⟨c, st⟩, hstep⟩ := Option.isSome_iff_exists.mp h
      exact ⟨_, .client hstep⟩
    · obtain ⟨⟨k, st⟩, hstep⟩ := Option.isSome_iff_exists.mp h
      exact ⟨_, .handler (fun j => (hs j).up) hstep⟩
  · exact (stream_refines hx hrun i).complete (by simp [Session.view, hdone])

/-- **The exchange over gRPC and FlatBuffers.**  For every family of calls with non-empty buffers,
in every interleaving of their steps: call `i` makes at most `2 (n + m) + 9` steps, can move until
`sendReq` has returned, and then the receive function was called once, on the request, and the reply
is its response. -/
theorem exchange_delivers (x : ι → CallSetup) (rsp : ι → Msg)
    (hto : ∀ i, 1 ≤ (x i).toServerWindow) (hfrom : ∀ i, 1 ≤ (x i).toClientWindow)
    (hreq : ∀ i, ∀ buf ∈ (x i).request, buf ≠ [])
    (hrcv : ∀ i, (x i).rcvFn (x i).request [] = .ok (rsp i))
    (hrsp : ∀ i, ∀ buf ∈ rsp i, buf ≠ []) (i : ι) :
    Delivers (SystemStep x) (fun _ => {}) i (2 * ((x i).request.length + (rsp i).length) + 9)
      (fun s => (s i).client.pc = .returned)
      (fun s => (s i).handler.calls = [(x i).request] ∧ (s i).client.reply = rsp i) := by
  refine stream_delivers (fun j => ?_) i
  exact {
    toServer := hto j
    toClient := hfrom j
    returns := hrcv j
    carries_request := fun buf hbuf => StreamTransport.carries_of_ne_nil _ (hreq j buf hbuf)
    carries_rsp := fun buf hbuf => StreamTransport.carries_of_ne_nil _ (hrsp j buf hbuf) }

/-- Two gRPC calls, of two buffers and of one, to a server that echoes. -/
def twoCalls (b : Bool) : CallSetup where
  transport := .grpc
  toServerWindow := 1
  toClientWindow := 2
  now := 0
  request := if b then [[1], [2, 3]] else [[4]]
  rcvFn := fun req _ => .ok req

theorem exchange_delivers_two :
    Delivers (SystemStep twoCalls) (fun _ => {}) true 17
      (fun s => (s true).client.pc = .returned)
      (fun s => (s true).handler.calls = [[[1], [2, 3]]] ∧
        (s true).client.reply = [[1], [2, 3]]) :=
  exchange_delivers twoCalls (fun b => (twoCalls b).request) (by decide) (by decide) (by decide)
    (fun _ => rfl) (by decide) true

end System

end RpcTransport

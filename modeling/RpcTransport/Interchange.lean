import RpcTransport.StreamRuns
import RpcTransport.CapnpRuns

/-!
# Are the transports interchangeable?

The same request and the same receive function, over gRPC, FlatBuffers and Cap'n Proto: the
transports are interchangeable when each of them completes the exchange, shows the receive function
the same buffers and leaves the same reply.

FlatBuffers and Cap'n Proto do so for all buffers.  Over gRPC an empty buffer arrives as a message
without data, whose null pointer the read loops dereference: no buffer that comes out of a gRPC
stream is empty (`Filled`), so gRPC completes no exchange that has one (`interchangeable_iff`).
-/

namespace RpcTransport

open Transition

/-- What the libraries choose: the windows of the two stream transports, the flow control of Cap'n
Proto, and the clock. -/
structure Links where
  toServerWindow : StreamTransport → ℕ
  toClientWindow : StreamTransport → ℕ
  flow : ℕ
  now : ℕ

def Links.stream (l : Links) (t : StreamTransport) (request : Msg) (rcvFn : RcvFn) : CallSetup where
  transport := t
  toServerWindow := l.toServerWindow t
  toClientWindow := l.toClientWindow t
  now := l.now
  request := request
  rcvFn := rcvFn

def Links.capnp (l : Links) (request : Msg) (rcvFn : RcvFn) : CapnpSetup where
  request := request
  rcvFn := rcvFn
  flow := l.flow

/-- A stream transport completes the exchange, calls the receive function with `shown` and leaves
`reply`. -/
def StreamCompletes (x : CallSetup) (shown reply : Msg) : Prop :=
  ∃ bound, Delivers (SystemStep fun _ : Unit => x) (fun _ => {}) () bound
    (fun s => (s ()).client.pc = .returned)
    (fun s => (s ()).handler.calls = [shown] ∧ (s ()).client.reply = reply)

/-- And so does Cap'n Proto. -/
def CapnpCompletes (x : CapnpSetup) (shown reply : Msg) : Prop :=
  ∃ bound, Delivers (CapnpStep fun _ : Unit => x) {} () bound
    (fun s => (s.conn ()).stream = some .finished)
    (fun s => s.calls () = [shown] ∧ (s.conn ()).reply = reply)

/-- All three transports complete the exchange in the same way. -/
def Interchangeable (l : Links) (request : Msg) (rcvFn : RcvFn) : Prop :=
  ∃ shown reply, StreamCompletes (l.stream .grpc request rcvFn) shown reply ∧
    StreamCompletes (l.stream .flatbuffers request rcvFn) shown reply ∧
    CapnpCompletes (l.capnp request rcvFn) shown reply

/-! ### What comes out of a gRPC stream -/

/-- No buffer is empty that is under way over gRPC, or has come out at either end. -/
structure Filled (s : Session) : Prop where
  toServer : ∀ m ∈ s.stream.toServer, m.data ≠ some []
  rcvMsg : ∀ buf ∈ s.handler.rcvMsg, buf ≠ []
  calls : ∀ msg ∈ s.handler.calls, ∀ buf ∈ msg, buf ≠ []
  toClient : ∀ m ∈ s.stream.toClient, m.data ≠ some []
  reply : ∀ buf ∈ s.client.reply, buf ≠ []

theorem grpcMsg_data_ne (buf : DataBuf) : (grpcMsg buf).data ≠ some [] := by
  unfold grpcMsg
  by_cases h : buf = []
  · simp [h]
  · simp [h]

theorem WireMsg.takeData_ne_nil {m : WireMsg} {buf : DataBuf} (hm : m.data ≠ some [])
    (htake : m.takeData = .ok buf) : buf ≠ [] := by
  rintro rfl
  unfold WireMsg.takeData at htake
  split at htake
  · rename_i hdata
    cases htake
    exact hm hdata
  · cases htake

namespace Filled

variable {x : CallSetup} {s : Session}

theorem init : Filled {} where
  toServer := by simp
  rcvMsg := by simp
  calls := by simp
  toClient := by simp
  reply := by simp

/-- The transport adds a message to a queue. -/
theorem push_queue {ms : List WireMsg} (hms : ∀ m ∈ ms, m.data ≠ some []) (buf : DataBuf) :
    ∀ m ∈ ms ++ [grpcMsg buf], m.data ≠ some [] := by
  intro m hm
  rcases List.mem_append.mp hm with hm | hm
  · exact hms m hm
  · rw [List.mem_singleton.mp hm]
    exact grpcMsg_data_ne buf

/-- A read loop takes a buffer out of a queue. -/
theorem pop_queue {m : WireMsg} {ms queue : List WireMsg} {got : Msg} {buf : DataBuf}
    (hqueue : queue = m :: ms) (hms : ∀ m ∈ queue, m.data ≠ some []) (hgot : ∀ b ∈ got, b ≠ [])
    (htake : m.takeData = .ok buf) :
    (∀ m ∈ ms, m.data ≠ some []) ∧ ∀ b ∈ got ++ [buf], b ≠ [] := by
  rw [hqueue] at hms
  refine ⟨fun n hn => hms n (List.mem_cons_of_mem _ hn), fun b hb => ?_⟩
  rcases List.mem_append.mp hb with hb | hb
  · exact hgot b hb
  · rw [List.mem_singleton.mp hb]
    exact WireMsg.takeData_ne_nil (hms m List.mem_cons_self) htake

theorem client_step (h : Filled s) (hgrpc : x.transport = .grpc) {c : SendReq} {st : Stream}
    (hstep : sendReqStep x s.client s.stream = some (c, st)) :
    Filled { s with client := c, stream := st } := by
  cases sendReqStep_cases hstep with
  | write _ _ _ =>
      refine { h with toServer := ?_ }
      rw [hgrpc]
      exact push_queue h.toServer _
  | read _ hqueue htake =>
      obtain ⟨hms, hreply⟩ := pop_queue hqueue h.toClient h.reply htake
      exact { h with toClient := hms, reply := hreply }
  | readNull _ hqueue _ =>
      refine { h with toClient := fun m hm => h.toClient m ?_ }
      rw [hqueue]
      exact List.mem_cons_of_mem _ hm
  | _ => exact { h with }

theorem handler_step (h : Filled s) (hgrpc : x.transport = .grpc) {k : ReqReply} {st : Stream}
    (hstep : reqReplyStep x s.handler s.stream = some (k, st)) :
    Filled { s with handler := k, stream := st } := by
  have hcalls : ∀ msg ∈ s.handler.calls ++ [s.handler.rcvMsg], ∀ buf ∈ msg, buf ≠ [] := by
    intro msg hmsg
    rcases List.mem_append.mp hmsg with hmsg | hmsg
    · exact h.calls msg hmsg
    · rw [List.mem_singleton.mp hmsg]
      exact h.rcvMsg
  cases reqReplyStep_cases hstep with
  | read _ hqueue htake =>
      obtain ⟨hms, hrcv⟩ := pop_queue hqueue h.toServer h.rcvMsg htake
      exact { h with toServer := hms, rcvMsg := hrcv }
  | readNull _ hqueue _ =>
      refine { h with toServer := fun m hm => h.toServer m ?_ }
      rw [hqueue]
      exact List.mem_cons_of_mem _ hm
  | rcvFn _ _ => exact { h with calls := hcalls }
  | abort _ _ => exact { h with calls := hcalls }
  | write _ _ _ =>
      refine { h with toClient := ?_ }
      rw [hgrpc]
      exact push_queue h.toClient _
  | _ => exact { h with }

/-- **gRPC hands out no empty buffer**, in any run of any number of calls. -/
theorem of_run {ι : Type} [DecidableEq ι] {x : ι → CallSetup} (hgrpc : ∀ i, (x i).transport = .grpc)
    {ls : List ι} {s : ι → Session} (hrun : Run (SystemStep x) (fun _ => {}) ls s) :
    ∀ i, Filled (s i) := by
  refine hrun.invariant (P := fun s => ∀ i, Filled (s i)) (fun _ => init) ?_
  intro i s s' hs hstep j
  -- the move replaces the call of one client
  have hupdate : ∀ p : Session, Filled p → Filled (Function.update s i p j) := by
    intro p hp
    rcases eq_or_ne j i with rfl | hne
    · rw [Function.update_self]
      exact hp
    · rw [Function.update_of_ne hne]
      exact hs j
  cases hstep with
  | client h => exact hupdate _ ((hs i).client_step (hgrpc i) h)
  | handler _ h => exact hupdate _ ((hs i).handler_step (hgrpc i) h)
  | lost status _ _ =>
      have hi := hs i
      exact hupdate _ ⟨hi.toServer, hi.rcvMsg, hi.calls, hi.toClient, hi.reply⟩

end Filled

/-! ### The exchange -/

section Exchange

variable {l : Links} {request rsp : Msg} {rcvFn : RcvFn}

/-- Over a stream transport that carries all the buffers, an exchange completes with the request and
its answer and in no other way. -/
theorem streamCompletes_iff {x : CallSetup} (hx : x.Answers rsp) (shown reply : Msg) :
    StreamCompletes x shown reply ↔ shown = x.request ∧ reply = rsp := by
  constructor
  · rintro ⟨bound, hdelivers⟩
    obtain ⟨ls, s, hrun, hdone, hcalls, hreply⟩ := hdelivers.exists_done
    have hseen := (stream_delivers (fun _ : Unit => hx) ()).correct ls s hrun hdone
    rw [hcalls, hreply] at hseen
    exact ⟨List.singleton_inj.mp hseen.1, hseen.2⟩
  · rintro ⟨rfl, rfl⟩
    exact ⟨_, stream_delivers (fun _ : Unit => hx) ()⟩

/-- **What gRPC completes has no empty buffer.** -/
theorem grpc_filled {x : CallSetup} (hgrpc : x.transport = .grpc) {shown reply : Msg}
    (h : StreamCompletes x shown reply) :
    (∀ buf ∈ shown, buf ≠ []) ∧ ∀ buf ∈ reply, buf ≠ [] := by
  obtain ⟨bound, hdelivers⟩ := h
  obtain ⟨ls, s, hrun, -, hcalls, hreply⟩ := hdelivers.exists_done
  have hfilled := Filled.of_run (fun _ : Unit => hgrpc) hrun ()
  refine ⟨hfilled.calls shown ?_, ?_⟩
  · rw [hcalls]
    exact List.mem_singleton_self _
  · rw [← hreply]
    exact hfilled.reply

theorem Links.answers (hto : ∀ t, 1 ≤ l.toServerWindow t) (hfrom : ∀ t, 1 ≤ l.toClientWindow t)
    (hrcv : rcvFn request [] = .ok rsp) {t : StreamTransport}
    (hreq : ∀ buf ∈ request, t.Carries buf) (hrsp : ∀ buf ∈ rsp, t.Carries buf) :
    (l.stream t request rcvFn).Answers rsp where
  toServer := hto t
  toClient := hfrom t
  returns := hrcv
  carries_request := hreq
  carries_rsp := hrsp

/-- **When the transports are interchangeable.**  For every request, every receive function that
answers it and all windows of at least one message: when no buffer of the request and none of the
answer is empty, and only then. -/
theorem interchangeable_iff (l : Links) (request rsp : Msg) (rcvFn : RcvFn)
    (hto : ∀ t, 1 ≤ l.toServerWindow t) (hfrom : ∀ t, 1 ≤ l.toClientWindow t)
    (hrcv : rcvFn request [] = .ok rsp) :
    Interchangeable l request rcvFn ↔ (∀ buf ∈ request, buf ≠ []) ∧ ∀ buf ∈ rsp, buf ≠ [] := by
  have hfbs := streamCompletes_iff (Links.answers (l := l) hto hfrom hrcv
    (fun buf _ => StreamTransport.flatbuffers_carries buf)
    (fun buf _ => StreamTransport.flatbuffers_carries buf))
  constructor
  · rintro ⟨shown, reply, hgrpc, hflat, -⟩
    -- FlatBuffers says what was shown, and gRPC that it is not empty
    obtain ⟨rfl, rfl⟩ := (hfbs shown reply).mp hflat
    exact grpc_filled rfl hgrpc
  · rintro ⟨hreq, hrsp⟩
    have hgrpc := streamCompletes_iff (Links.answers (l := l) hto hfrom hrcv
      (fun buf hbuf => StreamTransport.carries_of_ne_nil .grpc (hreq buf hbuf))
      (fun buf hbuf => StreamTransport.carries_of_ne_nil .grpc (hrsp buf hbuf)))
    have hcapnp : CapnpCompletes (l.capnp request rcvFn) request rsp :=
      ⟨_, capnp_delivers (x := fun _ : Unit => l.capnp request rcvFn) (fun _ => hrcv) ()⟩
    exact ⟨request, rsp, (hgrpc _ _).mpr ⟨rfl, rfl⟩, (hfbs _ _).mpr ⟨rfl, rfl⟩, hcapnp⟩

/-- Windows of one message, and a server that echoes. -/
def narrowLinks : Links := ⟨fun _ => 1, fun _ => 1, 0, 0⟩

theorem interchangeable_echo :
    Interchangeable narrowLinks [[1], [2, 3]] (fun req _ => .ok req) ↔
      (∀ buf ∈ [[1], [2, 3]], buf ≠ ([] : DataBuf)) ∧ ∀ buf ∈ [[1], [2, 3]], buf ≠ ([] : DataBuf) :=
  interchangeable_iff narrowLinks [[1], [2, 3]] [[1], [2, 3]] (fun req _ => .ok req)
    (fun _ => le_rfl) (fun _ => le_rfl) rfl

/-- A request of one empty buffer gets through over FlatBuffers and Cap'n Proto, not over gRPC. -/
theorem empty_buffer_not_interchangeable :
    ¬ Interchangeable narrowLinks [[]] (fun req _ => .ok req) := by
  rintro ⟨shown, reply, hgrpc, hflat, -⟩
  have hanswers : (narrowLinks.stream .flatbuffers [[]] fun req _ => .ok req).Answers [[]] :=
    ⟨Nat.one_pos, Nat.one_pos, rfl, fun _ _ => rfl, fun _ _ => rfl⟩
  obtain ⟨rfl, -⟩ := (streamCompletes_iff hanswers shown reply).mp hflat
  exact (grpc_filled rfl hgrpc).1 [] (List.mem_singleton_self _) rfl

end Exchange

end RpcTransport

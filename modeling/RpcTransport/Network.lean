import RpcTransport.CapnpRuns
import RpcTransport.MessageLimit
import RpcTransport.StreamRuns

/-!
# Networks that refuse messages and lose connections

`SystemStep` and `CapnpStep` carry messages of every size over connections that hold.  Over a
`Network` the same programs run with less: a receiver that comes to a message over the limit ends
the call, and a connection may break.

* `networkStep_iff`, `capnpNetworkStep_iff` — with all messages within the limit and connections
  that hold, the moves are the same;
* `NetworkStep.delivers`, `CapnpNetworkStep.delivers` — and so is what is delivered.
-/

namespace RpcTransport

open Transition
open Fifo (Passing)

/-- What calls run over: the limit for their messages, and the calls whose connection may break. -/
structure Network (ι : Type) where
  limit : MessageLimit
  breaks : ι → Prop

/-- No connection breaks. -/
def Network.Holds {ι : Type} (net : Network ι) : Prop := ∀ i, ¬ net.breaks i

namespace MessageLimit

variable {μ : Type}

/-- The first message of a queue is over the limit. -/
def Refuses (lim : MessageLimit) (bytes : μ → ℕ) (queue : List μ) : Prop :=
  ∃ m ∈ queue.head?, ¬ lim.Takes (bytes m)

/-- A move from `queue` to `queue'` takes no message over the limit out. -/
def Respects (lim : MessageLimit) (bytes : μ → ℕ) (queue queue' : List μ) : Prop :=
  lim.Refuses bytes queue → queue <+: queue'

theorem not_refuses {lim : MessageLimit} {bytes : μ → ℕ} {queue : List μ}
    (h : ∀ m ∈ queue, lim.Takes (bytes m)) : ¬ lim.Refuses bytes queue := by
  rintro ⟨m, hm, hover⟩
  exact hover (h m (List.mem_of_mem_head? hm))

end MessageLimit

variable {ι : Type} [DecidableEq ι] {net : Network ι}

/-! ### gRPC and FlatBuffers -/

/-- The bytes of the buffer in a message. -/
def WireMsg.bytes (m : WireMsg) : ℕ := (m.data.getD []).length

theorem StreamTransport.bytes_pack (t : StreamTransport) (buf : DataBuf) :
    (t.pack buf).bytes = buf.length := by
  cases t with
  | grpc =>
      rw [pack, grpcMsg, WireMsg.bytes]
      by_cases h : buf = [] <;> simp [h]
  | flatbuffers => rfl

/-- The moves of call `i` over a network. -/
inductive NetworkStep (net : Network ι) (x : ι → CallSetup) (i : ι) (s : ι → Session) :
    (ι → Session) → Prop
  | within {s' : ι → Session} (h : SystemStep x i s s')
      (htoServer : net.limit.Respects WireMsg.bytes (s i).stream.toServer (s' i).stream.toServer)
      (htoClient : net.limit.Respects WireMsg.bytes (s i).stream.toClient
        (s' i).stream.toClient) : NetworkStep net x i s s'
  /-- what the handler is to read is over the limit: the call ends with `RESOURCE_EXHAUSTED` -/
  | refusedRequest (status : Status) (hcode : status.code = 8)
      (hup : ∀ j, ¬ (s j).handler.pc.Down) (hpc : (s i).handler.pc = .read)
      (hrefuses : net.limit.Refuses WireMsg.bytes (s i).stream.toServer) :
      NetworkStep net x i s (Function.update s i { s i with
        stream := { (s i).stream with toServer := [] }.fail status })
  /-- and so it is for the client, also when the handler has returned -/
  | refusedReply (status : Status) (hcode : status.code = 8) (hpc : (s i).client.pc = .read)
      (hrefuses : net.limit.Refuses WireMsg.bytes (s i).stream.toClient) :
      NetworkStep net x i s (Function.update s i { s i with
        stream := { (s i).stream with toClient := [], status := none }.fail status })
  /-- the connection breaks before `sendReq` has returned, and the ends of both queues are lost; the
  server's status comes last -/
  | broken (j k : ℕ) (status : Status) (hcode : status.code ≠ 0)
      (hpc : (s i).client.pc ≠ .returned) (hbreaks : net.breaks i) :
      NetworkStep net x i s (Function.update s i { s i with
        stream := { (s i).stream with
          toServer := (s i).stream.toServer.take j
          toClient := (s i).stream.toClient.take k
          status := if k ≤ (s i).stream.toClient.length then none
            else (s i).stream.status }.fail status })

section Stream

variable {x : ι → CallSetup} {rsp : ι → Msg} {s s' : ι → Session} {i : ι}

/-- Messages within the limit are what they are without it. -/
theorem networkStep_iff (hhold : net.Holds) (hs : SessionInv (x i) (rsp i) (s i))
    (hreq : ∀ buf ∈ (x i).request, net.limit.Takes buf.length)
    (hrsp : ∀ buf ∈ rsp i, net.limit.Takes buf.length) :
    NetworkStep net x i s s' ↔ SystemStep x i s s' := by
  have htoServer : ¬ net.limit.Refuses WireMsg.bytes (s i).stream.toServer := by
    refine MessageLimit.not_refuses fun m hm => ?_
    obtain ⟨buf, hbuf, rfl⟩ := hs.request.mem_queue hm
    rw [StreamTransport.bytes_pack]
    exact hreq buf hbuf
  have htoClient : ¬ net.limit.Refuses WireMsg.bytes (s i).stream.toClient := by
    refine MessageLimit.not_refuses fun m hm => ?_
    obtain ⟨buf, hbuf, rfl⟩ := hs.reply.mem_queue hm
    rw [StreamTransport.bytes_pack]
    exact hrsp buf hbuf
  constructor
  · intro hstep
    cases hstep with
    | within h _ _ => exact h
    | refusedRequest _ _ _ _ hrefuses => exact absurd hrefuses htoServer
    | refusedReply _ _ _ hrefuses => exact absurd hrefuses htoClient
    | broken _ _ _ _ _ hbreaks => exact absurd hbreaks (hhold i)
  · intro h
    exact .within h (fun hrefuses => absurd hrefuses htoServer)
      fun hrefuses => absurd hrefuses htoClient

/-- **What calls deliver without a limit they deliver within it.** -/
theorem NetworkStep.delivers {bound : ℕ} {done good : (ι → Session) → Prop}
    (h : Delivers (SystemStep x) (fun _ => {}) i bound done good)
    (hx : ∀ i, (x i).Answers (rsp i)) (hhold : net.Holds)
    (hreq : ∀ i, ∀ buf ∈ (x i).request, net.limit.Takes buf.length)
    (hrsp : ∀ i, ∀ buf ∈ rsp i, net.limit.Takes buf.length) :
    Delivers (NetworkStep net x) (fun _ => {}) i bound done good := by
  refine h.congr fun ls s hrun j s' => ?_
  exact networkStep_iff hhold (stream_inv hx hrun j) (hreq j) (hrsp j)

end Stream

/-! ### Cap'n Proto -/

/-- The bytes of the chunk in a message; the other messages have none. -/
def ChunkCall.bytes : ChunkCall → ℕ
  | .sendChunk chunk => chunk.length
  | .done => 0

def ToServer.bytes : ToServer → ℕ
  | .call c => c.bytes
  | _ => 0

def ToClient.bytes : ToClient → ℕ
  | .call c => c.bytes
  | _ => 0

/-- The moves of connection `i` over a network: a side that is sent a message over the limit drops
the connection. -/
inductive CapnpNetworkStep (net : Network ι) (x : ι → CapnpSetup) (i : ι) (s : CapnpState ι) :
    CapnpState ι → Prop
  | within {s' : CapnpState ι} (h : CapnpStep x i s s')
      (htoServer : net.limit.Respects ToServer.bytes (s.conn i).toServer (s'.conn i).toServer)
      (htoClient : net.limit.Respects ToClient.bytes (s.conn i).toClient (s'.conn i).toClient) :
      CapnpNetworkStep net x i s s'
  | refused {s' : CapnpState ι} (h : Disconnect i s s')
      (hrefuses : net.limit.Refuses ToServer.bytes (s.conn i).toServer ∨
        net.limit.Refuses ToClient.bytes (s.conn i).toClient) : CapnpNetworkStep net x i s s'
  | broken {s' : CapnpState ι} (h : Disconnect i s s') (hbreaks : net.breaks i) :
      CapnpNetworkStep net x i s s'

/-- A stream under way has no other messages than its chunks and `done`. -/
theorem Streaming.mem_queue {μ : Type} {call : ChunkCall → μ} {m delivered : Msg} {pc : ChunkPc}
    {queue : List μ} {connected : Bool} (h : Streaming call m delivered pc queue connected)
    {msg : μ} (hmsg : msg ∈ queue) : msg = call .done ∨ ∃ buf ∈ m, msg = call (.sendChunk buf) := by
  obtain ⟨chunks, last, unsent, rfl, hpassing, hlast, -⟩ := h.passing
  rcases List.mem_append.mp hmsg with hmsg | hmsg
  · exact .inr (hpassing.mem_queue hmsg)
  · rcases hlast with rfl | ⟨rfl, -, -⟩
    · cases hmsg
    · exact .inl (List.mem_singleton.mp hmsg)

section Capnp

variable {x : ι → CapnpSetup} {rsp : ι → Msg} {s s' : CapnpState ι} {i : ι}

/-- What is under way on a connection is within the limit when request and answer are. -/
theorem ConnInv.taken {y : CapnpSetup} {answer : Msg} {v : CapnpConn} {o : Option ReqSvcImpl}
    (h : ConnInv y answer v o) {lim : MessageLimit} (hzero : lim.Takes 0)
    (hreq : ∀ buf ∈ y.request, lim.Takes buf.length) (hrsp : ∀ buf ∈ answer, lim.Takes buf.length) :
    (∀ m ∈ v.toServer, lim.Takes m.bytes) ∧ ∀ m ∈ v.toClient, lim.Takes m.bytes := by
  -- the request on its way, behind messages without a chunk or not
  have hasked : ∀ {delivered pc queue connected},
      Streaming ToServer.call y.request delivered pc queue connected →
      ∀ m ∈ queue, lim.Takes m.bytes := by
    intro delivered pc queue connected hstreaming m hm
    rcases hstreaming.mem_queue hm with rfl | ⟨buf, hbuf, rfl⟩
    · exact hzero
    · exact hreq buf hbuf
  cases h with
  | idle hquiet htoServer _ _ =>
      rw [htoServer, hquiet.toClient]
      exact ⟨by simp, by simp⟩
  | opening hquiet htoServer _ hstreaming =>
      rw [htoServer, hquiet.toClient]
      exact ⟨List.forall_mem_cons.mpr ⟨hzero, hasked hstreaming⟩, by simp⟩
  | calling hquiet _ _ _ hstreaming =>
      rw [hquiet.toClient]
      exact ⟨hasked hstreaming, by simp⟩
  | replying _ htoServer _ _ hstreaming =>
      rw [htoServer]
      refine ⟨by simp, fun m hm => ?_⟩
      rcases hstreaming.mem_queue hm with rfl | ⟨buf, hbuf, rfl⟩
      · exact hzero
      · exact hrsp buf hbuf
  | replied _ _ htoServer _ _ htoClient =>
      rw [htoClient]
      rcases htoServer with htoServer | ⟨-, htoServer⟩ <;> rw [htoServer]
      · exact ⟨List.forall_mem_cons.mpr ⟨hzero, by simp⟩, by simp⟩
      · exact ⟨by simp, by simp⟩
  | returning _ _ htoServer _ htoClient =>
      rw [htoServer]
      rcases htoClient with htoClient | ⟨-, htoClient⟩ <;> rw [htoClient]
      · exact ⟨by simp, List.forall_mem_cons.mpr ⟨hzero, by simp⟩⟩
      · exact ⟨by simp, by simp⟩
  | returned _ _ htoServer _ htoClient =>
      rw [htoServer, htoClient]
      exact ⟨by simp, by simp⟩

/-- As over the streams. -/
theorem capnpNetworkStep_iff (hhold : net.Holds)
    (hs : ConnInv (x i) (rsp i) (s.view i).1 (s.view i).2) (hzero : net.limit.Takes 0)
    (hreq : ∀ buf ∈ (x i).request, net.limit.Takes buf.length)
    (hrsp : ∀ buf ∈ rsp i, net.limit.Takes buf.length) :
    CapnpNetworkStep net x i s s' ↔ CapnpStep x i s s' := by
  obtain ⟨htoServer, htoClient⟩ := hs.taken hzero hreq hrsp
  have hserver := MessageLimit.not_refuses htoServer
  have hclient := MessageLimit.not_refuses htoClient
  constructor
  · intro hstep
    cases hstep with
    | within h _ _ => exact h
    | refused _ hrefuses => exact absurd hrefuses (not_or.mpr ⟨hserver, hclient⟩)
    | broken _ hbreaks => exact absurd hbreaks (hhold i)
  · intro h
    exact .within h (fun hrefuses => absurd hrefuses hserver)
      fun hrefuses => absurd hrefuses hclient

/-- **And so does Cap'n Proto.** -/
theorem CapnpNetworkStep.delivers {bound : ℕ} {done good : CapnpState ι → Prop}
    (h : Delivers (CapnpStep x) {} i bound done good)
    (hrcv : ∀ i, (x i).rcvFn (x i).request [] = .ok (rsp i)) (hhold : net.Holds)
    (hzero : net.limit.Takes 0) (hreq : ∀ i, ∀ buf ∈ (x i).request, net.limit.Takes buf.length)
    (hrsp : ∀ i, ∀ buf ∈ rsp i, net.limit.Takes buf.length) :
    Delivers (CapnpNetworkStep net x) {} i bound done good := by
  refine h.congr fun ls s hrun j s' => ?_
  have hheld := (capnp_held hrcv hrun).2 j
  exact capnpNetworkStep_iff hhold hheld.1 hzero (hreq j) (hrsp j)

end Capnp

end RpcTransport

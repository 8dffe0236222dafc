import RpcTransport.Transport
import RpcTransport.Lib.Transition

/-!
# The Cap'n Proto transport

One server process serves any number of connections in one event loop.  `reqReply` puts a new
`ReqSvcImpl` on the heap and hands out a capability for it; the client streams its buffers to it
with `sendChunk` and then calls `done` with a capability for its own `ReplySvcImpl`, on which the
server streams the response back before `done` returns.

Calls on one capability are delivered in order.  A `sendChunk` is a streaming call: its promise is
fulfilled when the flow control allows the next one, which may be before it was delivered.  A
connection may break at any moment, and what it loses is the end of what was under way.
-/

namespace RpcTransport

/-! ### The two streams -/

/-- The calls of `RequestCallback` and of `ReplyCallback`. -/
inductive ChunkCall
  | sendChunk (chunk : DataBuf)
  | done
  deriving DecidableEq

/-- Where a stream of chunks stands: before `sendChunk` or `done` with the next index, waiting
for the promise of the chunk at an index, or of `done`, or fulfilled. -/
inductive ChunkPc
  | send (bufIdx : ℕ)
  | sent (bufIdx : ℕ)
  | doneSent
  | finished
  | outOfRange
  deriving DecidableEq

/-- One round of the recursion both sides use: the next chunk, or `done` after the last one. -/
def sendStream (sndMsg : Msg) (bufIdx : ℕ) : ChunkPc × List ChunkCall :=
  if bufIdx = sndMsg.length then (.doneSent, [.done])
  else
    match sndMsg[bufIdx]? with
    | some buf => (.sent bufIdx, [.sendChunk buf])
    | none => (.outOfRange, [])

/-- `CapnprotoClient::impl::sendRequestStream`. -/
def sendRequestStream (sndMsg : Msg) (bufIdx : ℕ) : ChunkPc × List ChunkCall :=
  sendStream sndMsg bufIdx

/-- `ReqSvcImpl::sendReplyStream`. -/
def sendReplyStream (sndMsg : Msg) (bufIdx : ℕ) : ChunkPc × List ChunkCall :=
  sendStream sndMsg bufIdx

/-! ### The server object -/

/-- `ReqSvcImpl`, and the requests its `done` has called `rcvFn` with. -/
structure ReqSvcImpl where
  rcvMsg : Msg := []
  sndMsg : Msg := []
  calls : List Msg := []

/-- `ReqSvcImpl::sendChunk`. -/
def ReqSvcImpl.sendChunk (o : ReqSvcImpl) (chunk : DataBuf) : ReqSvcImpl :=
  { o with rcvMsg := o.rcvMsg ++ [chunk] }

/-- `ReqSvcImpl::done`, up to the start of the reply stream. -/
def ReqSvcImpl.done (rcvFn : RcvFn) (o : ReqSvcImpl) : Except Fault ReqSvcImpl :=
  match rcvFn o.rcvMsg o.sndMsg with
  | .ok sndMsg => .ok { o with sndMsg, calls := o.calls ++ [o.rcvMsg] }
  | .error e => .error e

/-! ### Connections -/

/-- What travels from a client to the server: the calls, and the return of `ReplyCallback.done`. -/
inductive ToServer
  | reqReply
  | call (c : ChunkCall)
  | replyReturned

/-- What travels back: the calls on the client's `ReplySvcImpl`, and the return of
`RequestCallback.done`. -/
inductive ToClient
  | call (c : ChunkCall)
  | returned

/-- One `sendReq` and its connection: the client's stream once it is started, its reply, and whether
its `ReplySvcImpl::done` was called; the messages under way; and, on the server, the object the
capability has been resolved to and the reply stream once `done` has started it. -/
structure CapnpConn where
  stream : Option ChunkPc := none
  reply : Msg := []
  replyDone : Bool := false
  connected : Bool := true
  toServer : List ToServer := []
  toClient : List ToClient := []
  reqSvc : Option ℕ := none
  task : Option ChunkPc := none

/-- What the client does with a message. -/
def CapnpConn.receive (v : CapnpConn) : ToClient → CapnpConn
  | .call (.sendChunk chunk) => { v with reply := v.reply ++ [chunk] }
  | .call .done => { v with replyDone := true, toServer := v.toServer ++ [.replyReturned] }
  | .returned => { v with stream := some .finished }

/-- What a call is about: the request, the server's receive function, and how many messages may be
under way when a streaming call is acknowledged. -/
structure CapnpSetup where
  request : Msg
  rcvFn : RcvFn
  flow : ℕ

/-- All connections, and the server's heap with the number of the next object. -/
structure CapnpState (ι : Type) where
  conn : ι → CapnpConn := fun _ => {}
  heap : ℕ → ReqSvcImpl := fun _ => {}
  next : ℕ := 0
  down : Bool := false

variable {ι : Type} [DecidableEq ι]

def CapnpState.set (s : CapnpState ι) (i : ι) (v : CapnpConn) : CapnpState ι :=
  { s with conn := Function.update s.conn i v }

/-- The moves of connection `i` while it holds, and of the server for it. -/
inductive CapnpStep (x : ι → CapnpSetup) (i : ι) (s : CapnpState ι) : CapnpState ι → Prop
  /-- `sendReq` calls `reqReply` and starts to stream to the capability it is promised -/
  | start (hconn : (s.conn i).connected = true) (hpc : (s.conn i).stream = none) :
      CapnpStep x i s (s.set i { s.conn i with
        stream := some (.send 0), toServer := (s.conn i).toServer ++ [.reqReply] })
  | send {k : ℕ} (hconn : (s.conn i).connected = true) (hpc : (s.conn i).stream = some (.send k)) :
      CapnpStep x i s (s.set i { s.conn i with
        stream := some (sendRequestStream (x i).request k).1
        toServer := (s.conn i).toServer ++ (sendRequestStream (x i).request k).2.map .call })
  /-- the promise of a chunk is fulfilled, delivered or not -/
  | ack {k : ℕ} (hconn : (s.conn i).connected = true) (hpc : (s.conn i).stream = some (.sent k))
      (hflow : (s.conn i).toServer.length ≤ (x i).flow) :
      CapnpStep x i s (s.set i { s.conn i with stream := some (.send (k + 1)) })
  | receive {m : ToClient} {ms : List ToClient} (hconn : (s.conn i).connected = true)
      (hqueue : (s.conn i).toClient = m :: ms) :
      CapnpStep x i s (s.set i ({ s.conn i with toClient := ms }.receive m))
  /-- `StreamServiceImpl::reqReply` -/
  | reqReply {ms : List ToServer} (hup : s.down = false)
      (hqueue : (s.conn i).toServer = .reqReply :: ms) :
      CapnpStep x i s { s.set i { s.conn i with toServer := ms, reqSvc := some s.next } with
        heap := Function.update s.heap s.next {}, next := s.next + 1 }
  | sendChunk {chunk : DataBuf} {ms : List ToServer} {n : ℕ} (hup : s.down = false)
      (hqueue : (s.conn i).toServer = .call (.sendChunk chunk) :: ms)
      (hcap : (s.conn i).reqSvc = some n) :
      CapnpStep x i s { s.set i { s.conn i with toServer := ms } with
        heap := Function.update s.heap n ((s.heap n).sendChunk chunk) }
  | done {ms : List ToServer} {n : ℕ} {o : ReqSvcImpl} (hup : s.down = false)
      (hqueue : (s.conn i).toServer = .call .done :: ms) (hcap : (s.conn i).reqSvc = some n)
      (hdone : (s.heap n).done (x i).rcvFn = .ok o) :
      CapnpStep x i s { s.set i { s.conn i with toServer := ms, task := some (.send 0) } with
        heap := Function.update s.heap n o }
  /-- an exception of `rcvFn` ends in `std::abort()` -/
  | abort {ms : List ToServer} {n : ℕ} {e : Fault} (hup : s.down = false)
      (hqueue : (s.conn i).toServer = .call .done :: ms) (hcap : (s.conn i).reqSvc = some n)
      (hdone : (s.heap n).done (x i).rcvFn = .error e) :
      CapnpStep x i s { s.set i { s.conn i with toServer := ms } with
        heap := Function.update s.heap n
          { s.heap n with calls := (s.heap n).calls ++ [(s.heap n).rcvMsg] }
        down := true }
  | reply {k n : ℕ} (hup : s.down = false) (hconn : (s.conn i).connected = true)
      (hpc : (s.conn i).task = some (.send k)) (hcap : (s.conn i).reqSvc = some n) :
      CapnpStep x i s (s.set i { s.conn i with
        task := some (sendReplyStream (s.heap n).sndMsg k).1
        toClient := (s.conn i).toClient ++ (sendReplyStream (s.heap n).sndMsg k).2.map .call })
  | ackReply {k : ℕ} (hup : s.down = false) (hconn : (s.conn i).connected = true)
      (hpc : (s.conn i).task = some (.sent k))
      (hflow : (s.conn i).toClient.length ≤ (x i).flow) :
      CapnpStep x i s (s.set i { s.conn i with task := some (.send (k + 1)) })
  /-- `ReplyCallback.done` has returned, and so does `done` -/
  | replyReturned {ms : List ToServer} (hup : s.down = false)
      (hqueue : (s.conn i).toServer = .replyReturned :: ms) :
      CapnpStep x i s (s.set i { s.conn i with
        toServer := ms
        task := some .finished
        toClient := if (s.conn i).connected then (s.conn i).toClient ++ [.returned]
          else (s.conn i).toClient })

/-- Connection `i` breaks: `sendReq` throws, or its process is gone, and of what is under way to the
server the first `j` messages still arrive. -/
inductive Disconnect (i : ι) (s : CapnpState ι) : CapnpState ι → Prop
  | mk (j : ℕ) (hconn : (s.conn i).connected = true) :
      Disconnect i s (s.set i { s.conn i with
        connected := false, toServer := (s.conn i).toServer.take j, toClient := [] })

/-- The moves of the whole system, in which connections may break. -/
def LossyStep (x : ι → CapnpSetup) (i : ι) (s s' : CapnpState ι) : Prop :=
  CapnpStep x i s s' ∨ Disconnect i s s'

end RpcTransport

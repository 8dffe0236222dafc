import RpcTransport.Transport
import RpcTransport.Lib.Transition

/-!
# One call over a bidirectional stream: gRPC and FlatBuffers

`GrpcClient::sendReq` and `FlatbuffersClient::sendReq` run the same program against the same stream
interface, and so do the two `ReqReply` handlers; the transports differ in the message a buffer is
packed into.  Each of the two programs is deterministic, so each is a function from its own state
and the stream's to the next ones, `none` while it is blocked.  They share the stream: a queue in
each direction, of which `Write` fills a window, the half-close, the status of the server, and how
the call ended for the client if it did not end well.

`SystemStep` interleaves any number of calls on one server process.
-/

namespace RpcTransport

/-! ### Messages on the wire -/

/-- `Msg` of both transports: its `data` field, when it is there. -/
structure WireMsg where
  data : Option Bytes
  deriving DecidableEq

inductive StreamTransport
  | grpc
  | flatbuffers
  deriving DecidableEq

/-- `msg.set_data(buf._addr, buf._len)`, as it is sent: an empty field of proto3 is left out. -/
def grpcMsg (buf : DataBuf) : WireMsg := ⟨if buf = [] then none else some buf⟩

/-- `CreateMsg(mb, mb.CreateString(buf._addr, buf._len))`: the string is always there. -/
def fbsMsg (buf : DataBuf) : WireMsg := ⟨some buf⟩

/-- The message a buffer is sent as. -/
def StreamTransport.pack : StreamTransport → DataBuf → WireMsg
  | .grpc => grpcMsg
  | .flatbuffers => fbsMsg

/-- `*msg.release_data()`, and `msg->data()->str()`: the pointer is null when there is no field. -/
def WireMsg.takeData (m : WireMsg) : Except Fault DataBuf :=
  match m.data with
  | some buf => .ok buf
  | none => .error .nullDeref

/-! ### The stream -/

/-- `grpc::Status`. -/
structure Status where
  code : ℕ := 0
  message : String := ""
  deriving DecidableEq

/-- A call, as both sides see it: the deadline it was started with, the queues, the half-close, the
status of the server once it has returned, and the status the call ended with if it was cut off,
cancelled or ran out of time. -/
structure Stream where
  created : Bool := false
  deadline : Option ℕ := none
  toServer : List WireMsg := []
  halfClosed : Bool := false
  toClient : List WireMsg := []
  status : Option Status := none
  broken : Option Status := none

/-- The status `Finish` returns, when the call is over. -/
def Stream.final (st : Stream) : Option Status := st.status.or st.broken

/-- The call ends before the server's status has arrived. -/
def Stream.fail (st : Stream) (status : Status) : Stream :=
  { st with broken := st.broken.or (some status) }

/-! ### The client -/

/-- Where `sendReq` stands. -/
inductive ClientPc
  /-- before `_stub->ReqReply(&context)` -/
  | reqReply
  /-- before `context.set_deadline(deadline)` -/
  | setDeadline
  /-- in the loop of `Write`s, with the buffers to go, or before `WritesDone` -/
  | write (bufs : Msg)
  /-- in the loop of `Read`s -/
  | read
  /-- before `Finish` -/
  | finish
  | returned
  | threw (what : String)
  | crashed (e : Fault)
  deriving DecidableEq

/-- The state of `sendReq`: the deadline in its `ClientContext`, and the caller's reply. -/
structure SendReq where
  pc : ClientPc := .reqReply
  context : Option ℕ := none
  reply : Msg := []

/-- What a call is about: the transport, the windows, the reading of `system_clock` in milliseconds,
the client's request and the server's receive function. -/
structure CallSetup where
  transport : StreamTransport
  toServerWindow : ℕ
  toClientWindow : ℕ
  now : ℕ
  request : Msg
  rcvFn : RcvFn

/-- `"send failed: (" + error_code + ") " + error_message`. -/
def sendFailed (status : Status) : String :=
  "send failed: (" ++ toString status.code ++ ") " ++ status.message

/-- The next step of `sendReq`. -/
def sendReqStep (x : CallSetup) (c : SendReq) (st : Stream) : Option (SendReq × Stream) :=
  match c.pc with
  | .reqReply =>
      -- the call takes the deadline that is in the context now
      some ({ c with pc := .setDeadline }, { st with created := true, deadline := c.context })
  | .setDeadline => some ({ c with pc := .write x.request, context := some (x.now + 10000) }, st)
  | .write (buf :: bufs) =>
      -- `Write` on a call that is over returns `false`, which is not looked at
      if st.final.isSome then some ({ c with pc := .write bufs }, st)
      else if st.toServer.length < x.toServerWindow then
        some ({ c with pc := .write bufs },
          { st with toServer := st.toServer ++ [x.transport.pack buf] })
      else none
  | .write [] => some ({ c with pc := .read }, { st with halfClosed := st.broken.isNone })
  | .read =>
      match st.toClient with
      | m :: ms =>
          match m.takeData with
          | .ok buf => some ({ c with reply := c.reply ++ [buf] }, { st with toClient := ms })
          | .error e => some ({ c with pc := .crashed e }, { st with toClient := ms })
      | [] => if st.final.isSome then some ({ c with pc := .finish }, st) else none
  | .finish =>
      match st.final with
      | some status =>
          if status.code = 0 then some ({ c with pc := .returned }, st)
          else some ({ c with pc := .threw (sendFailed status) }, st)
      | none => none
  | _ => none

/-! ### The server -/

/-- Where the handler stands. -/
inductive HandlerPc
  /-- before it is started -/
  | idle
  /-- in the loop of `Read`s -/
  | read
  /-- before `rcvFn(rcvMsg, sndMsg, rspData)` -/
  | rcvFn
  /-- in the loop of `Write`s, with the buffers to go, or before the return -/
  | write (bufs : Msg)
  | returned
  /-- `rcvFn` did not return -/
  | aborted (e : Fault)
  /-- the read loop dereferenced a null pointer -/
  | crashed (e : Fault)
  deriving DecidableEq

/-- The process is gone. -/
def HandlerPc.Down : HandlerPc → Prop
  | .aborted _ => True
  | .crashed _ => True
  | _ => False

/-- The state of `ReqReply`, and the requests `rcvFn` was called with. -/
structure ReqReply where
  pc : HandlerPc := .idle
  rcvMsg : Msg := []
  calls : List Msg := []

/-- The next step of `ReqReply`. -/
def reqReplyStep (x : CallSetup) (h : ReqReply) (st : Stream) : Option (ReqReply × Stream) :=
  match h.pc with
  | .idle => if st.created then some ({ h with pc := .read }, st) else none
  | .read =>
      match st.toServer with
      | m :: ms =>
          match m.takeData with
          | .ok buf => some ({ h with rcvMsg := h.rcvMsg ++ [buf] }, { st with toServer := ms })
          | .error e => some ({ h with pc := .crashed e }, { st with toServer := ms })
      | [] =>
          -- `Read` returns `false` after a half-close and after a broken stream alike
          if st.halfClosed || st.broken.isSome then some ({ h with pc := .rcvFn }, st) else none
  | .rcvFn =>
      match x.rcvFn h.rcvMsg [] with
      | .ok rsp => some ({ h with pc := .write rsp, calls := h.calls ++ [h.rcvMsg] }, st)
      -- an exception ends in `std::abort()`
      | .error e => some ({ h with pc := .aborted e, calls := h.calls ++ [h.rcvMsg] }, st)
  | .write (buf :: bufs) =>
      if st.broken.isSome then some ({ h with pc := .write bufs }, st)
      else if st.toClient.length < x.toClientWindow then
        some ({ h with pc := .write bufs },
          { st with toClient := st.toClient ++ [x.transport.pack buf] })
      else none
  | .write [] =>
      some ({ h with pc := .returned },
        if st.broken.isSome then st else { st with status := some {} })
  | _ => none

/-! ### What a step can do -/

/-- The steps of `sendReq`, with what each of them changes. -/
inductive ClientMove (x : CallSetup) (c : SendReq) (st : Stream) : SendReq → Stream → Prop
  | reqReply (hpc : c.pc = .reqReply) :
      ClientMove x c st { c with pc := .setDeadline }
        { st with created := true, deadline := c.context }
  | setDeadline (hpc : c.pc = .setDeadline) :
      ClientMove x c st { c with pc := .write x.request, context := some (x.now + 10000) } st
  | writeOver {buf : DataBuf} {bufs : Msg} (hpc : c.pc = .write (buf :: bufs))
      (hover : st.final.isSome = true) : ClientMove x c st { c with pc := .write bufs } st
  | write {buf : DataBuf} {bufs : Msg} (hpc : c.pc = .write (buf :: bufs))
      (hopen : ¬ st.final.isSome = true) (hroom : st.toServer.length < x.toServerWindow) :
      ClientMove x c st { c with pc := .write bufs }
        { st with toServer := st.toServer ++ [x.transport.pack buf] }
  | writesDone (hpc : c.pc = .write []) :
      ClientMove x c st { c with pc := .read } { st with halfClosed := st.broken.isNone }
  | read {m : WireMsg} {ms : List WireMsg} {buf : DataBuf} (hpc : c.pc = .read)
      (hqueue : st.toClient = m :: ms) (htake : m.takeData = .ok buf) :
      ClientMove x c st { c with reply := c.reply ++ [buf] } { st with toClient := ms }
  | readNull {m : WireMsg} {ms : List WireMsg} {e : Fault} (hpc : c.pc = .read)
      (hqueue : st.toClient = m :: ms) (htake : m.takeData = .error e) :
      ClientMove x c st { c with pc := .crashed e } { st with toClient := ms }
  | readEnd (hpc : c.pc = .read) (hqueue : st.toClient = []) (hover : st.final.isSome = true) :
      ClientMove x c st { c with pc := .finish } st
  | finish {status : Status} (hpc : c.pc = .finish) (hfinal : st.final = some status)
      (hcode : status.code = 0) : ClientMove x c st { c with pc := .returned } st
  | finishThrow {status : Status} (hpc : c.pc = .finish) (hfinal : st.final = some status)
      (hcode : ¬ status.code = 0) :
      ClientMove x c st { c with pc := .threw (sendFailed status) } st

theorem sendReqStep_cases {x : CallSetup} {c c' : SendReq} {st st' : Stream}
    (h : sendReqStep x c st = some (c', st')) : ClientMove x c st c' st' := by
  unfold sendReqStep at h
  split at h <;> rename_i hpc
  · cases h
    exact .reqReply hpc
  · cases h
    exact .setDeadline hpc
  · split at h
    · rename_i hover
      cases h
      exact .writeOver hpc hover
    · rename_i hopen
      split at h
      · rename_i hroom
        cases h
        exact .write hpc hopen hroom
      · cases h
  · cases h
    exact .writesDone hpc
  · split at h
    · rename_i hqueue
      split at h <;> rename_i htake <;> cases h
      · exact .read hpc hqueue htake
      · exact .readNull hpc hqueue htake
    · rename_i hqueue
      split at h
      · rename_i hover
        cases h
        exact .readEnd hpc hqueue hover
      · cases h
  · split at h
    · rename_i hfinal
      split at h <;> rename_i hcode <;> cases h
      · exact .finish hpc hfinal hcode
      · exact .finishThrow hpc hfinal hcode
    · cases h
  · cases h

/-- The steps of `ReqReply`, with what each of them changes. -/
inductive HandlerMove (x : CallSetup) (h : ReqReply) (st : Stream) : ReqReply → Stream → Prop
  | start (hpc : h.pc = .idle) (hcreated : st.created = true) :
      HandlerMove x h st { h with pc := .read } st
  | read {m : WireMsg} {ms : List WireMsg} {buf : DataBuf} (hpc : h.pc = .read)
      (hqueue : st.toServer = m :: ms) (htake : m.takeData = .ok buf) :
      HandlerMove x h st { h with rcvMsg := h.rcvMsg ++ [buf] } { st with toServer := ms }
  | readNull {m : WireMsg} {ms : List WireMsg} {e : Fault} (hpc : h.pc = .read)
      (hqueue : st.toServer = m :: ms) (htake : m.takeData = .error e) :
      HandlerMove x h st { h with pc := .crashed e } { st with toServer := ms }
  | readEnd (hpc : h.pc = .read) (hqueue : st.toServer = [])
      (hend : (st.halfClosed || st.broken.isSome) = true) :
      HandlerMove x h st { h with pc := .rcvFn } st
  | rcvFn {rsp : Msg} (hpc : h.pc = .rcvFn) (hrcv : x.rcvFn h.rcvMsg [] = .ok rsp) :
      HandlerMove x h st { h with pc := .write rsp, calls := h.calls ++ [h.rcvMsg] } st
  | abort {e : Fault} (hpc : h.pc = .rcvFn) (hrcv : x.rcvFn h.rcvMsg [] = .error e) :
      HandlerMove x h st { h with pc := .aborted e, calls := h.calls ++ [h.rcvMsg] } st
  | writeBroken {buf : DataBuf} {bufs : Msg} (hpc : h.pc = .write (buf :: bufs))
      (hbroken : st.broken.isSome = true) : HandlerMove x h st { h with pc := .write bufs } st
  | write {buf : DataBuf} {bufs : Msg} (hpc : h.pc = .write (buf :: bufs))
      (hopen : ¬ st.broken.isSome = true) (hroom : st.toClient.length < x.toClientWindow) :
      HandlerMove x h st { h with pc := .write bufs }
        { st with toClient := st.toClient ++ [x.transport.pack buf] }
  | returnBroken (hpc : h.pc = .write []) (hbroken : st.broken.isSome = true) :
      HandlerMove x h st { h with pc := .returned } st
  | returnOk (hpc : h.pc = .write []) (hopen : ¬ st.broken.isSome = true) :
      HandlerMove x h st { h with pc := .returned } { st with status := some {} }

theorem reqReplyStep_cases {x : CallSetup} {h h' : ReqReply} {st st' : Stream}
    (hstep : reqReplyStep x h st = some (h', st')) : HandlerMove x h st h' st' := by
  unfold reqReplyStep at hstep
  split at hstep <;> rename_i hpc
  · split at hstep
    · rename_i hcreated
      cases hstep
      exact .start hpc hcreated
    · cases hstep
  · split at hstep
    · rename_i hqueue
      split at hstep <;> rename_i htake <;> cases hstep
      · exact .read hpc hqueue htake
      · exact .readNull hpc hqueue htake
    · rename_i hqueue
      split at hstep
      · rename_i hend
        cases hstep
        exact .readEnd hpc hqueue hend
      · cases hstep
  · split at hstep <;> rename_i hrcv <;> cases hstep
    · exact .rcvFn hpc hrcv
    · exact .abort hpc hrcv
  · split at hstep
    · rename_i hbroken
      cases hstep
      exact .writeBroken hpc hbroken
    · rename_i hopen
      split at hstep
      · rename_i hroom
        cases hstep
        exact .write hpc hopen hroom
      · cases hstep
  · cases hstep
    split
    · rename_i hbroken
      exact .returnBroken hpc hbroken
    · rename_i hopen
      exact .returnOk hpc hopen
  · cases hstep

/-! ### Calls side by side -/

/-- One call: the client, the stream and the handler. -/
structure Session where
  client : SendReq := {}
  stream : Stream := {}
  handler : ReqReply := {}

/-- The moves of one call whose server stays up. -/
inductive SessionStep (x : CallSetup) (s : Session) : Session → Prop
  | client {c : SendReq} {st : Stream} (h : sendReqStep x s.client s.stream = some (c, st)) :
      SessionStep x s { s with client := c, stream := st }
  | handler {k : ReqReply} {st : Stream} (h : reqReplyStep x s.handler s.stream = some (k, st)) :
      SessionStep x s { s with handler := k, stream := st }

/-- The moves of call `i` among any number of calls to one server process.  A handler runs while the
process is up; when it is down, calls break off. -/
inductive SystemStep {ι : Type} [DecidableEq ι] (x : ι → CallSetup) (i : ι) (s : ι → Session) :
    (ι → Session) → Prop
  | client {c : SendReq} {st : Stream}
      (h : sendReqStep (x i) (s i).client (s i).stream = some (c, st)) :
      SystemStep x i s (Function.update s i { s i with client := c, stream := st })
  | handler {k : ReqReply} {st : Stream} (hup : ∀ j, ¬ (s j).handler.pc.Down)
      (h : reqReplyStep (x i) (s i).handler (s i).stream = some (k, st)) :
      SystemStep x i s (Function.update s i { s i with handler := k, stream := st })
  | lost (status : Status) (hdown : ∃ j, (s j).handler.pc.Down) (hcode : status.code ≠ 0) :
      SystemStep x i s (Function.update s i { s i with stream := (s i).stream.fail status })

end RpcTransport

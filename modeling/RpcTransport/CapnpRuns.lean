import RpcTransport.CapnpConn
import RpcTransport.CapnpStream
import RpcTransport.Lib.RemoteCall

/-!
# Runs of the Cap'n Proto transport

A connection lives through seven phases, from the client's first call to the return of `sendReq`;
`ConnInv` says what its queues and the server's object hold in each of them.  Every move of the
connection leads to the same or the next phase, is a move of the abstract remote call or none, and
lowers `ConnView.work` (`ConnInv.step`); and when the connection breaks it stays in its phase with
less under way (`ConnInv.lose`).  While it holds it can always move until `sendReq` has returned
(`ConnInv.progress`).

`capnp_sessions` is what this says of any number of connections to one server, of which any may
break at any point, and `capnp_delivers` what it says when none does.
-/

namespace RpcTransport

/-- Nothing has come back to the client, and nothing will before `done` has been delivered. -/
structure CapnpConn.Unanswered (v : CapnpConn) : Prop where
  reply : v.reply = []
  replyDone : v.replyDone = false
  toClient : v.toClient = []
  task : v.task = none

/-- **The phases of a connection** whose server answers `rsp`, with the object its capability stands
for. -/
inductive ConnInv (x : CapnpSetup) (rsp : Msg) (v : CapnpConn) : Option ReqSvcImpl → Prop
  /-- before `sendReq`, or broken before the server has heard of it -/
  | idle (hquiet : v.Unanswered) (htoServer : v.toServer = [])
      (hstream : v.connected = true → v.stream = none)
      (hunderway : ∀ pc, v.stream = some pc → pc.Underway x.request) : ConnInv x rsp v none
  /-- the call of `reqReply` is on its way, with the chunks behind it -/
  | opening {pc : ChunkPc} {queue : List ToServer} (hquiet : v.Unanswered)
      (htoServer : v.toServer = .reqReply :: queue) (hstream : v.stream = some pc)
      (hstreaming : Streaming .call x.request [] pc queue v.connected) : ConnInv x rsp v none
  /-- the chunks arrive at the object -/
  | calling {o : ReqSvcImpl} {pc : ChunkPc} (hquiet : v.Unanswered) (hsnd : o.sndMsg = [])
      (hcalls : o.calls = []) (hstream : v.stream = some pc)
      (hstreaming : Streaming .call x.request o.rcvMsg pc v.toServer v.connected) :
      ConnInv x rsp v (some o)
  /-- `rcvFn` has returned, and the answer is on its way -/
  | replying {pc : ChunkPc} (hstream : v.stream = some .doneSent) (htoServer : v.toServer = [])
      (htask : v.task = some pc) (hdone : v.replyDone = false)
      (hstreaming : Streaming .call rsp v.reply pc v.toClient v.connected) :
      ConnInv x rsp v (some ⟨x.request, rsp, [x.request]⟩)
  /-- the client has all of it, and `ReplyCallback.done` returns -/
  | replied (hstream : v.stream = some .doneSent) (htask : v.task = some .doneSent)
      (htoServer : v.toServer = [.replyReturned] ∨ v.connected = false ∧ v.toServer = [])
      (hdone : v.replyDone = true) (hreply : v.reply = rsp) (htoClient : v.toClient = []) :
      ConnInv x rsp v (some ⟨x.request, rsp, [x.request]⟩)
  /-- `RequestCallback.done` returns -/
  | returning (hstream : v.stream = some .doneSent) (htask : v.task = some .finished)
      (htoServer : v.toServer = []) (hreply : v.reply = rsp)
      (htoClient : v.toClient = [.returned] ∨ v.connected = false ∧ v.toClient = []) :
      ConnInv x rsp v (some ⟨x.request, rsp, [x.request]⟩)
  /-- `sendReq` has returned -/
  | returned (hstream : v.stream = some .finished) (htask : v.task = some .finished)
      (htoServer : v.toServer = []) (hreply : v.reply = rsp) (htoClient : v.toClient = []) :
      ConnInv x rsp v (some ⟨x.request, rsp, [x.request]⟩)

/-- What can be seen of a connection from outside. -/
def ConnView.view (p : ConnView) : RemoteCall.State DataBuf where
  calls := p.2.elim [] ReqSvcImpl.calls
  reply := p.1.reply
  returned := decide (p.1.stream = some .finished)

/-- The moves a connection has left: those of the two streams, and the deliveries. -/
def ConnView.work (x : CapnpSetup) (rsp : Msg) (p : ConnView) : ℕ :=
  streamWork x.request p.1.stream + streamWork rsp p.1.task
    + p.2.elim (x.request.length + 1) (fun o => x.request.length - o.rcvMsg.length)
    + (rsp.length - p.1.reply.length) + (bif p.1.replyDone then 0 else 1)

namespace ConnInv

variable {x : CapnpSetup} {rsp : Msg} {v : CapnpConn} {o : Option ReqSvcImpl}

theorem init (x : CapnpSetup) (rsp : Msg) : ConnInv x rsp {} none :=
  .idle ⟨rfl, rfl, rfl, rfl⟩ rfl (fun _ => rfl) (fun _ h => by cases h)

/-- The object is allocated once, and `rcvFn` returns when it is called. -/
theorem settled (h : ConnInv x rsp v o) (hrcv : x.rcvFn x.request [] = .ok rsp) :
    Settled x (v, o) := by
  refine ⟨fun ms hqueue => ?_, fun ms o' hqueue ho => ?_⟩
  · have hqueue : v.toServer = .reqReply :: ms := hqueue
    cases h with
    | idle => rfl
    | opening => rfl
    | calling _ _ _ _ hstreaming =>
        rw [hqueue] at hstreaming
        rcases hstreaming.pop with ⟨buf, hcall, -⟩ | ⟨hcall, -⟩ <;> cases hcall
    | replying _ htoServer => rw [htoServer] at hqueue; cases hqueue
    | replied _ _ htoServer =>
        rcases htoServer with htoServer | ⟨-, htoServer⟩ <;> rw [htoServer] at hqueue <;>
          cases hqueue
    | returning _ _ htoServer => rw [htoServer] at hqueue; cases hqueue
    | returned _ _ htoServer => rw [htoServer] at hqueue; cases hqueue
  · have hqueue : v.toServer = .call .done :: ms := hqueue
    have ho : o = some o' := ho
    cases h with
    | idle => cases ho
    | opening => cases ho
    | calling _ hsnd _ _ hstreaming =>
        cases ho
        rw [hqueue] at hstreaming
        rcases hstreaming.pop with ⟨buf, hcall, -⟩ | ⟨-, -, -, hall⟩
        · cases hcall
        · exact ⟨_, by rw [ReqSvcImpl.done, hall, hsnd, hrcv]⟩
    | replying _ htoServer => rw [htoServer] at hqueue; cases hqueue
    | replied _ _ htoServer =>
        rcases htoServer with htoServer | ⟨-, htoServer⟩ <;> rw [htoServer] at hqueue <;>
          cases hqueue
    | returning _ _ htoServer => rw [htoServer] at hqueue; cases hqueue
    | returned _ _ htoServer => rw [htoServer] at hqueue; cases hqueue

/-- When the connection breaks it stays in its phase. -/
theorem lose (h : ConnInv x rsp v o) {p : ConnView} (hbreak : ConnBreak (v, o) p) :
    ConnInv x rsp p.1 p.2 ∧ p.view = ConnView.view (v, o) := by
  cases hbreak with
  | mk j hconn =>
      refine ⟨?_, rfl⟩
      cases h with
      | idle hquiet htoServer hstream hunderway =>
          refine .idle ⟨hquiet.reply, hquiet.replyDone, rfl, hquiet.task⟩ ?_ (by simp) hunderway
          show v.toServer.take j = []
          rw [htoServer, List.take_nil]
      | @opening pc queue hquiet htoServer hstream hstreaming =>
          have hquiet' : CapnpConn.Unanswered
              { v with connected := false, toServer := v.toServer.take j, toClient := [] } :=
            ⟨hquiet.reply, hquiet.replyDone, rfl, hquiet.task⟩
          cases j with
          | zero =>
              refine .idle hquiet' rfl (by simp) fun pc' hpc' => ?_
              rw [show pc' = pc from Option.some.inj (hpc'.symm.trans hstream)]
              exact hstreaming.underway
          | succ j =>
              have hqueue : v.toServer.take (j + 1) = .reqReply :: queue.take j := by
                rw [htoServer, List.take_succ_cons]
              exact .opening hquiet' hqueue hstream (hstreaming.lose j)
      | calling hquiet hsnd hcalls hstream hstreaming =>
          exact .calling ⟨hquiet.reply, hquiet.replyDone, rfl, hquiet.task⟩ hsnd hcalls hstream
            (hstreaming.lose j)
      | replying hstream htoServer htask hdone hstreaming =>
          refine .replying hstream ?_ htask hdone (hstreaming.lose 0)
          show v.toServer.take j = []
          rw [htoServer, List.take_nil]
      | replied hstream htask htoServer hdone hreply htoClient =>
          refine .replied hstream htask ?_ hdone hreply rfl
          show v.toServer.take j = _ ∨ false = false ∧ v.toServer.take j = []
          rcases htoServer with htoServer | ⟨-, htoServer⟩
          · cases j with
            | zero => exact .inr ⟨rfl, rfl⟩
            | succ j => exact .inl (by rw [htoServer, List.take_succ_cons, List.take_nil])
          · exact .inr ⟨rfl, by rw [htoServer, List.take_nil]⟩
      | returning hstream htask htoServer hreply htoClient =>
          refine .returning hstream htask ?_ hreply (.inr ⟨rfl, rfl⟩)
          show v.toServer.take j = []
          rw [htoServer, List.take_nil]
      | returned hstream htask htoServer hreply htoClient =>
          refine .returned hstream htask ?_ hreply rfl
          show v.toServer.take j = []
          rw [htoServer, List.take_nil]

/-! ### One move -/

/-- What a move of a connection does. -/
structure Advance (x : CapnpSetup) (rsp : Msg) (p p' : ConnView) : Prop where
  inv : ConnInv x rsp p'.1 p'.2
  work_lt : p'.work x rsp < p.work x rsp
  view_step : RemoteCall.Step x.request rsp p.view p'.view ∨ p'.view = p.view
  connected : p'.1.connected = p.1.connected

theorem idle_step {p : ConnView} (hquiet : v.Unanswered) (htoServer : v.toServer = [])
    (hstream : v.connected = true → v.stream = none) (hstep : ConnStep x (v, none) p) :
    Advance x rsp (v, none) p := by
  cases hstep with
  | start hconn hpc =>
      have hqueue : v.toServer ++ [.reqReply] = [.reqReply] := by rw [htoServer]; rfl
      refine ⟨.opening ⟨hquiet.reply, hquiet.replyDone, hquiet.toClient, hquiet.task⟩ hqueue rfl
        (.start _ _ _), ?_, .inr ?_, rfl⟩
      · simp only [ConnView.work, streamWork, hpc]
        omega
      · simp [ConnView.view, hpc]
  | send hconn hpc => cases (hstream hconn).symm.trans hpc
  | ack hconn hpc => cases (hstream hconn).symm.trans hpc
  | receive _ hqueue => cases hquiet.toClient.symm.trans hqueue
  | reqReply n hqueue => cases htoServer.symm.trans hqueue
  | ackReply _ hpc => cases hquiet.task.symm.trans hpc
  | replyReturned hqueue => cases htoServer.symm.trans hqueue

theorem opening_step {p : ConnView} {pc : ChunkPc} {queue : List ToServer}
    (hquiet : v.Unanswered) (htoServer : v.toServer = .reqReply :: queue)
    (hstream : v.stream = some pc)
    (hstreaming : Streaming .call x.request [] pc queue v.connected)
    (hstep : ConnStep x (v, none) p) : Advance x rsp (v, none) p := by
  cases hstep with
  | start _ hpc => cases hstream.symm.trans hpc
  | @send _ _ k hconn hpc =>
      obtain rfl : pc = .send k := Option.some.inj (hstream.symm.trans hpc)
      have hqueue : v.toServer ++ (sendRequestStream x.request k).2.map .call
          = .reqReply :: (queue ++ (sendRequestStream x.request k).2.map .call) := by
        rw [htoServer, List.cons_append]
      refine ⟨.opening ⟨hquiet.reply, hquiet.replyDone, hquiet.toClient, hquiet.task⟩ hqueue rfl
        (hstreaming.send hconn), ?_, .inr ?_, rfl⟩
      · have := hstreaming.work_send
        simp only [ConnView.work, hpc, sendRequestStream]
        omega
      · simp [ConnView.view, hpc, sendRequestStream, hstreaming.round_ne_finished]
  | @ack _ _ k hconn hpc hflow =>
      obtain rfl : pc = .sent k := Option.some.inj (hstream.symm.trans hpc)
      refine ⟨.opening ⟨hquiet.reply, hquiet.replyDone, hquiet.toClient, hquiet.task⟩ htoServer rfl
        (hstreaming.ack hconn), ?_, .inr ?_, rfl⟩
      · have := hstreaming.work_ack
        simp only [ConnView.work, hpc]
        omega
      · simp [ConnView.view, hpc]
  | receive _ hqueue => cases hquiet.toClient.symm.trans hqueue
  | reqReply n hqueue =>
      obtain ⟨-, rfl⟩ := List.cons.inj (htoServer.symm.trans hqueue)
      refine ⟨.calling ⟨hquiet.reply, hquiet.replyDone, hquiet.toClient, hquiet.task⟩ rfl rfl
        hstream hstreaming, ?_, .inr rfl, rfl⟩
      simp only [ConnView.work, Option.elim, List.length_nil]
      omega
  | ackReply _ hpc => cases hquiet.task.symm.trans hpc
  | replyReturned hqueue => cases htoServer.symm.trans hqueue

theorem calling_step {p : ConnView} {o : ReqSvcImpl} {pc : ChunkPc}
    (hrcv : x.rcvFn x.request [] = .ok rsp) (hquiet : v.Unanswered) (hsnd : o.sndMsg = [])
    (hcalls : o.calls = []) (hstream : v.stream = some pc)
    (hstreaming : Streaming .call x.request o.rcvMsg pc v.toServer v.connected)
    (hstep : ConnStep x (v, some o) p) : Advance x rsp (v, some o) p := by
  cases hstep with
  | start _ hpc => cases hstream.symm.trans hpc
  | @send _ _ k hconn hpc =>
      obtain rfl : pc = .send k := Option.some.inj (hstream.symm.trans hpc)
      refine ⟨.calling ⟨hquiet.reply, hquiet.replyDone, hquiet.toClient, hquiet.task⟩ hsnd hcalls
        rfl (hstreaming.send hconn), ?_, .inr ?_, rfl⟩
      · have := hstreaming.work_send
        simp only [ConnView.work, hpc, sendRequestStream]
        omega
      · simp [ConnView.view, hpc, sendRequestStream, hstreaming.round_ne_finished]
  | @ack _ _ k hconn hpc hflow =>
      obtain rfl : pc = .sent k := Option.some.inj (hstream.symm.trans hpc)
      refine ⟨.calling ⟨hquiet.reply, hquiet.replyDone, hquiet.toClient, hquiet.task⟩ hsnd hcalls
        rfl (hstreaming.ack hconn), ?_, .inr ?_, rfl⟩
      · have := hstreaming.work_ack
        simp only [ConnView.work, hpc]
        omega
      · simp [ConnView.view, hpc]
  | receive _ hqueue => cases hquiet.toClient.symm.trans hqueue
  | reqReply n hqueue =>
      rw [hqueue] at hstreaming
      rcases hstreaming.pop with ⟨buf, hcall, -⟩ | ⟨hcall, -⟩ <;> cases hcall
  | sendChunk hqueue =>
      rw [hqueue] at hstreaming
      rcases hstreaming.pop with ⟨buf, hcall, hlen, hstreaming'⟩ | ⟨hcall, -⟩
      · cases hcall
        refine ⟨.calling ⟨hquiet.reply, hquiet.replyDone, hquiet.toClient, hquiet.task⟩ hsnd hcalls
          hstream hstreaming', ?_, .inr rfl, rfl⟩
        simp only [ConnView.work, Option.elim, ReqSvcImpl.sendChunk, List.length_append,
          List.length_singleton]
        omega
      · cases hcall
  | done hqueue hdone =>
      rw [hqueue] at hstreaming
      rcases hstreaming.pop with ⟨buf, hcall, -⟩ | ⟨-, rfl, rfl, hall⟩
      · cases hcall
      · -- the whole request is there, so this is what `rcvFn` is called with
        rw [ReqSvcImpl.done, hall, hsnd, hrcv] at hdone
        cases hdone
        rw [hcalls]
        refine ⟨.replying hstream rfl rfl hquiet.replyDone ?_, ?_, .inl ?_, rfl⟩
        · show Streaming _ _ v.reply _ v.toClient v.connected
          rw [hquiet.reply, hquiet.toClient]
          exact .start _ _ _
        · simp only [ConnView.work, Option.elim, hquiet.task, streamWork, hall]
          omega
        · exact RemoteCall.Step.serve (s := ConnView.view (v, some o)) hcalls
  | reply _ hpc => cases hquiet.task.symm.trans hpc
  | ackReply _ hpc => cases hquiet.task.symm.trans hpc
  | replyReturned hqueue =>
      rw [hqueue] at hstreaming
      rcases hstreaming.pop with ⟨buf, hcall, -⟩ | ⟨hcall, -⟩ <;> cases hcall

theorem replying_step {p : ConnView} {pc : ChunkPc} (hstream : v.stream = some .doneSent)
    (htoServer : v.toServer = []) (htask : v.task = some pc) (hdone : v.replyDone = false)
    (hstreaming : Streaming .call rsp v.reply pc v.toClient v.connected)
    (hstep : ConnStep x (v, some ⟨x.request, rsp, [x.request]⟩) p) :
    Advance x rsp (v, some ⟨x.request, rsp, [x.request]⟩) p := by
  cases hstep with
  | start _ hpc => cases hstream.symm.trans hpc
  | send _ hpc => cases hstream.symm.trans hpc
  | ack _ hpc => cases hstream.symm.trans hpc
  | receive hconn hqueue =>
      rw [hqueue] at hstreaming
      rcases hstreaming.pop with ⟨buf, rfl, hlen, hstreaming'⟩ | ⟨rfl, rfl, rfl, hall⟩
      · refine ⟨.replying hstream htoServer htask hdone hstreaming', ?_, .inl ?_, rfl⟩
        · simp only [ConnView.work, CapnpConn.receive, List.length_append, List.length_singleton]
          omega
        · refine RemoteCall.Step.deliver
            (s := ConnView.view (v, some ⟨x.request, rsp, [x.request]⟩)) rfl ?_
            hstreaming'.prefix_of
          simp [ConnView.view, hstream]
      · have hqueue' : v.toServer ++ [.replyReturned] = [.replyReturned] := by rw [htoServer]; rfl
        refine ⟨.replied hstream htask (.inl hqueue') rfl hall rfl, ?_, .inr rfl, rfl⟩
        simp only [ConnView.work, CapnpConn.receive, hdone, cond_true, cond_false]
        omega
  | reqReply n hqueue => cases htoServer.symm.trans hqueue
  | sendChunk hqueue => cases htoServer.symm.trans hqueue
  | done hqueue _ => cases htoServer.symm.trans hqueue
  | @reply _ _ k hconn hpc =>
      obtain rfl : pc = .send k := Option.some.inj (htask.symm.trans hpc)
      refine ⟨.replying hstream htoServer rfl hdone (hstreaming.send hconn), ?_, .inr rfl, rfl⟩
      have := hstreaming.work_send
      simp only [ConnView.work, hpc, sendReplyStream]
      omega
  | @ackReply _ _ k hconn hpc hflow =>
      obtain rfl : pc = .sent k := Option.some.inj (htask.symm.trans hpc)
      refine ⟨.replying hstream htoServer rfl hdone (hstreaming.ack hconn), ?_, .inr rfl, rfl⟩
      have := hstreaming.work_ack
      simp only [ConnView.work, hpc]
      omega
  | replyReturned hqueue => cases htoServer.symm.trans hqueue

theorem replied_step {p : ConnView} (hstream : v.stream = some .doneSent)
    (htask : v.task = some .doneSent)
    (htoServer : v.toServer = [.replyReturned] ∨ v.connected = false ∧ v.toServer = [])
    (hreply : v.reply = rsp) (htoClient : v.toClient = [])
    (hstep : ConnStep x (v, some ⟨x.request, rsp, [x.request]⟩) p) :
    Advance x rsp (v, some ⟨x.request, rsp, [x.request]⟩) p := by
  have hhead : ∀ m ms, v.toServer = m :: ms → m = .replyReturned ∧ ms = [] := by
    intro m ms hqueue
    rcases htoServer with htoServer | ⟨-, htoServer⟩
    · exact List.cons.inj (hqueue.symm.trans htoServer)
    · cases htoServer.symm.trans hqueue
  cases hstep with
  | start _ hpc => cases hstream.symm.trans hpc
  | send _ hpc => cases hstream.symm.trans hpc
  | ack _ hpc => cases hstream.symm.trans hpc
  | receive _ hqueue => cases htoClient.symm.trans hqueue
  | reqReply n hqueue => cases (hhead _ _ hqueue).1
  | sendChunk hqueue => cases (hhead _ _ hqueue).1
  | done hqueue _ => cases (hhead _ _ hqueue).1
  | reply _ hpc => cases htask.symm.trans hpc
  | ackReply _ hpc => cases htask.symm.trans hpc
  | replyReturned hqueue =>
      obtain ⟨-, rfl⟩ := hhead _ _ hqueue
      refine ⟨.returning hstream rfl rfl hreply ?_, ?_, .inr rfl, rfl⟩
      · show (if v.connected = true then v.toClient ++ [.returned] else v.toClient) = _ ∨
          v.connected = false ∧
            (if v.connected = true then v.toClient ++ [.returned] else v.toClient) = _
        cases hconn : v.connected with
        | true => exact .inl (by rw [htoClient]; rfl)
        | false => exact .inr ⟨rfl, htoClient⟩
      · simp only [ConnView.work, htask, streamWork]
        omega

theorem returning_step {p : ConnView} (hstream : v.stream = some .doneSent)
    (htask : v.task = some .finished) (htoServer : v.toServer = []) (hreply : v.reply = rsp)
    (htoClient : v.toClient = [.returned] ∨ v.connected = false ∧ v.toClient = [])
    (hstep : ConnStep x (v, some ⟨x.request, rsp, [x.request]⟩) p) :
    Advance x rsp (v, some ⟨x.request, rsp, [x.request]⟩) p := by
  cases hstep with
  | start _ hpc => cases hstream.symm.trans hpc
  | send _ hpc => cases hstream.symm.trans hpc
  | ack _ hpc => cases hstream.symm.trans hpc
  | receive _ hqueue =>
      rcases htoClient with htoClient | ⟨-, htoClient⟩
      · obtain ⟨rfl, rfl⟩ := List.cons.inj (hqueue.symm.trans htoClient)
        refine ⟨.returned rfl htask htoServer hreply rfl, ?_, .inl ?_, rfl⟩
        · simp only [ConnView.work, CapnpConn.receive, hstream, streamWork]
          omega
        · exact RemoteCall.Step.finish
            (s := ConnView.view (v, some ⟨x.request, rsp, [x.request]⟩)) rfl hreply
      · cases htoClient.symm.trans hqueue
  | reqReply n hqueue => cases htoServer.symm.trans hqueue
  | sendChunk hqueue => cases htoServer.symm.trans hqueue
  | done hqueue _ => cases htoServer.symm.trans hqueue
  | reply _ hpc => cases htask.symm.trans hpc
  | ackReply _ hpc => cases htask.symm.trans hpc
  | replyReturned hqueue => cases htoServer.symm.trans hqueue

/-- After `sendReq` has returned the connection rests. -/
theorem returned_step {p : ConnView} {o : Option ReqSvcImpl} (hstream : v.stream = some .finished)
    (htask : v.task = some .finished) (htoServer : v.toServer = []) (htoClient : v.toClient = [])
    (hstep : ConnStep x (v, o) p) : False := by
  cases hstep with
  | start _ hpc => cases hstream.symm.trans hpc
  | send _ hpc => cases hstream.symm.trans hpc
  | ack _ hpc => cases hstream.symm.trans hpc
  | receive _ hqueue => cases htoClient.symm.trans hqueue
  | reqReply n hqueue => cases htoServer.symm.trans hqueue
  | sendChunk hqueue => cases htoServer.symm.trans hqueue
  | done hqueue _ => cases htoServer.symm.trans hqueue
  | reply _ hpc => cases htask.symm.trans hpc
  | ackReply _ hpc => cases htask.symm.trans hpc
  | replyReturned hqueue => cases htoServer.symm.trans hqueue

/-- **A move of a connection**, whatever its phase. -/
theorem step (h : ConnInv x rsp v o) (hrcv : x.rcvFn x.request [] = .ok rsp) {p : ConnView}
    (hstep : ConnStep x (v, o) p) : Advance x rsp (v, o) p := by
  cases h with
  | idle hquiet htoServer hstream _ => exact idle_step hquiet htoServer hstream hstep
  | opening hquiet htoServer hstream hstreaming =>
      exact opening_step hquiet htoServer hstream hstreaming hstep
  | calling hquiet hsnd hcalls hstream hstreaming =>
      exact calling_step hrcv hquiet hsnd hcalls hstream hstreaming hstep
  | replying hstream htoServer htask hdone hstreaming =>
      exact replying_step hstream htoServer htask hdone hstreaming hstep
  | replied hstream htask htoServer _ hreply htoClient =>
      exact replied_step hstream htask htoServer hreply htoClient hstep
  | returning hstream htask htoServer hreply htoClient =>
      exact returning_step hstream htask htoServer hreply htoClient hstep
  | returned hstream htask htoServer _ htoClient =>
      exact (returned_step hstream htask htoServer htoClient hstep).elim

/-- **No deadlock.**  While the connection holds it can move until `sendReq` has returned: with
nothing in a queue the flow control lets its sender go on. -/
theorem progress (h : ConnInv x rsp v o) (hrcv : x.rcvFn x.request [] = .ok rsp)
    (hconn : v.connected = true) (hnot : v.stream ≠ some .finished) :
    ∃ p, ConnStep x (v, o) p := by
  have hbroken : ¬ v.connected = false := by rw [hconn]; exact Bool.noConfusion
  cases h with
  | idle _ _ hstream _ => exact ⟨_, .start hconn (hstream hconn)⟩
  | opening _ htoServer _ _ => exact ⟨_, .reqReply 0 htoServer⟩
  | calling hquiet hsnd hcalls hstream hstreaming =>
      cases hqueue : v.toServer with
      | nil =>
          rw [hqueue] at hstreaming
          rcases hstreaming.pc_of_empty hconn with ⟨k, rfl⟩ | ⟨k, rfl⟩
          · exact ⟨_, .send hconn hstream⟩
          · refine ⟨_, .ack hconn hstream ?_⟩
            rw [hqueue]
            exact Nat.zero_le _
      | cons m ms =>
          rw [hqueue] at hstreaming
          rcases hstreaming.pop with ⟨buf, rfl, -⟩ | ⟨rfl, -, -, hall⟩
          · exact ⟨_, .sendChunk hqueue⟩
          · exact ⟨_, .done hqueue (by rw [ReqSvcImpl.done, hall, hsnd, hrcv])⟩
  | replying _ _ htask _ hstreaming =>
      cases hqueue : v.toClient with
      | nil =>
          rw [hqueue] at hstreaming
          rcases hstreaming.pc_of_empty hconn with ⟨k, rfl⟩ | ⟨k, rfl⟩
          · exact ⟨_, .reply hconn htask⟩
          · refine ⟨_, .ackReply hconn htask ?_⟩
            rw [hqueue]
            exact Nat.zero_le _
      | cons m ms => exact ⟨_, .receive hconn hqueue⟩
  | replied _ _ htoServer _ _ _ =>
      exact ⟨_, .replyReturned (htoServer.resolve_right fun h => hbroken h.1)⟩
  | returning _ _ _ _ htoClient =>
      exact ⟨_, .receive hconn (htoClient.resolve_right fun h => hbroken h.1)⟩
  | returned hstream => exact (hnot hstream).elim

end ConnInv

/-! ### Connections side by side -/

section System

open Transition

variable {ι : Type} [DecidableEq ι] {x : ι → CapnpSetup} {rsp : ι → Msg}

/-- A move of the abstract call or none, to one of the phases. -/
structure Follows (x : CapnpSetup) (rsp : Msg) (p p' : ConnView) : Prop where
  inv : ConnInv x rsp p'.1 p'.2
  view_step : RemoteCall.Step x.request rsp p.view p'.view ∨ p'.view = p.view

/-- In the whole system connection `i` follows the abstract call, also where it breaks. -/
theorem lossyStep_local (hrcv : ∀ i, (x i).rcvFn (x i).request [] = .ok (rsp i)) :
    Local HeapOk (fun i s => s.view i) (fun i p => ConnInv (x i) (rsp i) p.1 p.2)
      (fun i => Follows (x i) (rsp i)) (LossyStep x) := by
  intro i s s' hok hs hstep
  rcases hstep with hstep | hbreak
  · obtain ⟨hok', hown, hrest⟩ := capnpStep_conn hok ((hs i).settled (hrcv i)) hstep
    have hmove := (hs i).step (hrcv i) hown
    exact ⟨hok', ⟨hmove.inv, hmove.view_step⟩, hrest⟩
  · obtain ⟨hok', hown, hrest⟩ := disconnect_conn hok hbreak
    obtain ⟨hinv, hview⟩ := (hs i).lose hown
    exact ⟨hok', ⟨hinv, .inr hview⟩, hrest⟩

omit [DecidableEq ι] in
theorem capnpInit (x : ι → CapnpSetup) (rsp : ι → Msg) :
    HeapOk ({} : CapnpState ι) ∧
      ∀ i, ConnInv (x i) (rsp i) (({} : CapnpState ι).view i).1 (({} : CapnpState ι).view i).2 :=
  ⟨HeapOk.init, fun i => ConnInv.init (x i) (rsp i)⟩

/-- What one connection is promised, whatever happens to it and to the others. -/
structure ConnSafe (x : CapnpSetup) (rsp : Msg) (p : ConnView) : Prop where
  /-- `rcvFn` is called at most once, and on the whole request -/
  once : p.view.calls = [] ∨ p.view.calls = [x.request]
  /-- and not before the client has sent all of it -/
  asked : p.view.calls ≠ [] → p.1.stream = some .doneSent ∨ p.1.stream = some .finished
  /-- the reply is the beginning of the answer to it -/
  ordered : p.1.reply <+: rsp
  unserved : p.view.calls = [] → p.1.reply = []
  /-- and all of it when `sendReq` returns -/
  complete : p.1.stream = some .finished → p.view.calls = [x.request] ∧ p.1.reply = rsp
  inRange : p.1.stream ≠ some .outOfRange ∧ p.1.task ≠ some .outOfRange

omit [DecidableEq ι] in
/-- What the phase says beyond what can be seen from outside. -/
theorem ConnInv.asked {x : CapnpSetup} {rsp : Msg} {p : ConnView} (h : ConnInv x rsp p.1 p.2) :
    (p.view.calls ≠ [] → p.1.stream = some .doneSent ∨ p.1.stream = some .finished) ∧
      p.1.stream ≠ some .outOfRange ∧ p.1.task ≠ some .outOfRange := by
  have hunder : ∀ {m : Msg} {pc : ChunkPc}, pc.Underway m → some pc ≠ some .outOfRange := by
    rintro m pc hpc heq
    cases heq
    exact hpc
  obtain ⟨v, o⟩ := p
  have h : ConnInv x rsp v o := h
  show ((o.elim [] ReqSvcImpl.calls) ≠ [] → v.stream = _ ∨ v.stream = _) ∧ v.stream ≠ _ ∧ v.task ≠ _
  cases h with
  | idle hquiet _ _ hunderway =>
      refine ⟨fun hne => absurd rfl hne, fun hpc => ?_, by rw [hquiet.task]; simp⟩
      exact hunderway _ hpc
  | opening hquiet _ hstream hstreaming =>
      refine ⟨fun hne => absurd rfl hne, ?_, by rw [hquiet.task]; simp⟩
      rw [hstream]
      exact hunder hstreaming.underway
  | calling hquiet _ hcalls hstream hstreaming =>
      refine ⟨fun hne => absurd hcalls hne, ?_, by rw [hquiet.task]; simp⟩
      rw [hstream]
      exact hunder hstreaming.underway
  | replying hstream _ htask _ hstreaming =>
      refine ⟨fun _ => .inl hstream, by rw [hstream]; simp, ?_⟩
      rw [htask]
      exact hunder hstreaming.underway
  | replied hstream htask =>
      exact ⟨fun _ => .inl hstream, by rw [hstream]; simp, by rw [htask]; simp⟩
  | returning hstream htask =>
      exact ⟨fun _ => .inl hstream, by rw [hstream]; simp, by rw [htask]; simp⟩
  | returned hstream htask =>
      exact ⟨fun _ => .inr hstream, by rw [hstream]; simp, by rw [htask]; simp⟩

/-- **Every connection refines the abstract remote call**, and its phase is known. -/
theorem capnp_refines (hrcv : ∀ i, (x i).rcvFn (x i).request [] = .ok (rsp i))
    {ls : List ι} {s : CapnpState ι} (hrun : Run (LossyStep x) {} ls s) (i : ι) :
    ConnInv (x i) (rsp i) (s.view i).1 (s.view i).2 ∧
      RemoteCall.Consistent (x i).request (rsp i) (s.view i).view := by
  have hlocal := lossyStep_local hrcv
  have hinv := hrun.invariant (capnpInit x rsp) (hlocal.invariant fun _ _ _ _ h => h.inv)
  refine ⟨hinv.2 i, RemoteCall.Consistent.of_reachable ?_⟩
  exact hlocal.refines (fun _ _ _ _ h => h.inv) hrun (capnpInit x rsp) i ConnView.view
    (fun _ _ _ h => h.view_step)

/-- **The sessions of one server.**  For every family of sessions whose `rcvFn` returns, in every
interleaving of chunks, acknowledgements, deliveries, returns and disconnects: an object of the
server whose `done` called `rcvFn` belongs to exactly one session, and every session is safe. -/
theorem capnp_sessions (x : ι → CapnpSetup) (rsp : ι → Msg)
    (hrcv : ∀ i, (x i).rcvFn (x i).request [] = .ok (rsp i))
    {ls : List ι} {s : CapnpState ι} (hrun : Run (LossyStep x) {} ls s) :
    (∀ n, (s.heap n).calls ≠ [] → ∃! i, (s.conn i).reqSvc = some n) ∧
      ∀ i, ConnSafe (x i) (rsp i) (s.view i) := by
  have hkeep := (lossyStep_local hrcv).invariant (fun _ _ _ _ h => h.inv)
  have hok := (hrun.invariant (capnpInit x rsp) hkeep).1
  refine ⟨fun n hn => ?_, fun i => ?_⟩
  · obtain ⟨i, hi⟩ := hok.owned n hn
    exact ⟨i, hi, fun j hj => hok.own j i n hj hi⟩
  · obtain ⟨hinv, hseen⟩ := capnp_refines hrcv hrun i
    obtain ⟨hasked, hrange⟩ := hinv.asked
    exact {
      once := hseen.once
      asked := hasked
      ordered := hseen.ordered
      unserved := fun hnil => (hseen.unserved hnil).1
      complete := fun hret => hseen.complete (decide_eq_true hret)
      inRange := hrange }

/-- A session of two buffers, one of them empty, and one that breaks off. -/
def twoSessions (b : Bool) : CapnpSetup where
  request := if b then [[], [7]] else [[1]]
  rcvFn := fun req _ => .ok req
  flow := 1

theorem capnp_sessions_two :
    ∃ ls s, Run (LossyStep twoSessions) {} ls s ∧
      (s.conn true).stream = some .finished ∧ (s.conn true).reply = [[], [7]] ∧
      (s.conn false).connected = false ∧ (s.conn false).stream ≠ some .finished ∧
      ConnSafe (twoSessions true) [[], [7]] (s.view true) ∧
      ConnSafe (twoSessions false) [[1]] (s.view false) := by
  have hopen : Run (LossyStep twoSessions) {} _ _ :=
    ((Run.refl.tail (.inl (.start (i := false) rfl rfl))).tail
      (.inl (.start (i := true) rfl rfl))).tail (.inl (.reqReply (i := true) rfl rfl))
  have hsend := (hopen.tail (.inl (.send (i := true) rfl rfl))).tail
    (.inl (.send (i := false) rfl rfl))
  -- the promise of the first chunk is fulfilled before the chunk is delivered
  have hbroken := (hsend.tail (.inl (.ack (i := true) rfl rfl (Nat.le_refl 1)))).tail
    (.inr (.mk (i := false) 1 rfl))
  -- what the broken connection had sent still arrives
  have hrequest := (((hbroken.tail (.inl (.reqReply (i := false) rfl rfl))).tail
    (.inl (.send (i := true) rfl rfl))).tail
    (.inl (.sendChunk (i := true) (n := 0) rfl rfl rfl))).tail
    (.inl (.ack (i := true) rfl rfl (Nat.le_refl 1)))
  have hdone := ((hrequest.tail (.inl (.send (i := true) rfl rfl))).tail
    (.inl (.sendChunk (i := true) (n := 0) rfl rfl rfl))).tail
    (.inl (.done (i := true) (n := 0) rfl rfl rfl rfl))
  have hreply := ((((hdone.tail (.inl (.reply (i := true) (n := 0) rfl rfl rfl rfl))).tail
    (.inl (.ackReply (i := true) rfl rfl rfl (Nat.le_refl 1)))).tail
    (.inl (.reply (i := true) (n := 0) rfl rfl rfl rfl))).tail
    (.inl (.receive (i := true) rfl rfl))).tail
    (.inl (.ackReply (i := true) rfl rfl rfl (Nat.le_refl 1)))
  have hreplied := ((hreply.tail (.inl (.receive (i := true) rfl rfl))).tail
    (.inl (.reply (i := true) (n := 0) rfl rfl rfl rfl))).tail
    (.inl (.receive (i := true) rfl rfl))
  have hrun := (hreplied.tail (.inl (.replyReturned (i := true) rfl rfl))).tail
    (.inl (.receive (i := true) rfl rfl))
  have hsafe := (capnp_sessions twoSessions (fun b => if b then [[], [7]] else [[1]])
    (by intro b; cases b <;> rfl) hrun).2
  exact ⟨_, _, hrun, rfl, rfl, rfl, nofun, hsafe true, hsafe false⟩

/-! ### Connections that hold -/

/-- The connection is in one of its phases, and holds. -/
def ConnHeld (x : CapnpSetup) (rsp : Msg) (p : ConnView) : Prop :=
  ConnInv x rsp p.1 p.2 ∧ p.1.connected = true

omit [DecidableEq ι] in
theorem ConnHeld.advance {x : CapnpSetup} {rsp : Msg} {p p' : ConnView} (h : ConnHeld x rsp p)
    (hmove : ConnInv.Advance x rsp p p') : ConnHeld x rsp p' :=
  ⟨hmove.inv, hmove.connected.trans h.2⟩

omit [DecidableEq ι] in
theorem capnpInit_held (x : ι → CapnpSetup) (rsp : ι → Msg) :
    HeapOk ({} : CapnpState ι) ∧ ∀ i, ConnHeld (x i) (rsp i) (({} : CapnpState ι).view i) :=
  ⟨HeapOk.init, fun i => ⟨ConnInv.init (x i) (rsp i), rfl⟩⟩

/-- While no connection breaks, a move of connection `i` is one that its phase allows. -/
theorem capnpStep_local (hrcv : ∀ i, (x i).rcvFn (x i).request [] = .ok (rsp i)) :
    Local HeapOk (fun i s => s.view i) (fun i => ConnHeld (x i) (rsp i))
      (fun i => ConnInv.Advance (x i) (rsp i)) (CapnpStep x) := by
  intro i s s' hok hs hstep
  obtain ⟨hok', hown, hrest⟩ := capnpStep_conn hok ((hs i).1.settled (hrcv i)) hstep
  exact ⟨hok', (hs i).1.step (hrcv i) hown, hrest⟩

theorem capnp_held (hrcv : ∀ i, (x i).rcvFn (x i).request [] = .ok (rsp i)) {ls : List ι}
    {s : CapnpState ι} (hrun : Run (CapnpStep x) {} ls s) :
    HeapOk s ∧ ∀ i, ConnHeld (x i) (rsp i) (s.view i) :=
  hrun.invariant (capnpInit_held x rsp)
    ((capnpStep_local hrcv).invariant fun _ _ _ h hmove => h.advance hmove)

/-- The requests `rcvFn` was called with for connection `i`. -/
def CapnpState.calls (s : CapnpState ι) (i : ι) : List Msg := (s.view i).view.calls

/-- **Every call is delivered** while the connections hold: it takes boundedly many steps, is never
stuck, and returns with the answer to its own request, for which `rcvFn` was called exactly once. -/
theorem capnp_delivers (hrcv : ∀ i, (x i).rcvFn (x i).request [] = .ok (rsp i)) (i : ι) :
    Delivers (CapnpStep x) {} i (3 * ((x i).request.length + (rsp i).length) + 8)
      (fun s => (s.conn i).stream = some .finished)
      (fun s => s.calls i = [(x i).request] ∧ (s.conn i).reply = rsp i) := by
  have hlocal := capnpStep_local hrcv
  have hkeep : ∀ i p p', ConnHeld (x i) (rsp i) p → ConnInv.Advance (x i) (rsp i) p p' →
      ConnHeld (x i) (rsp i) p' := fun _ _ _ h hmove => h.advance hmove
  have hinit := capnpInit_held x rsp
  refine ⟨fun ls s hrun => ?_, fun ls s hrun hnot => ?_, fun ls s hrun hdone => ?_⟩
  · have hle := hlocal.count_le hkeep hrun hinit i (ConnView.work (x i) (rsp i))
      (fun _ _ _ h => h.work_lt)
    have hbound : ConnView.work (x i) (rsp i) (({} : CapnpState ι).view i)
        = 3 * ((x i).request.length + (rsp i).length) + 8 := by
      simp only [ConnView.work, CapnpState.view, Option.map_none, Option.elim, streamWork,
        List.length_nil, cond_false]
      omega
    exact hle.trans hbound.le
  · obtain ⟨hok, hs⟩ := capnp_held hrcv hrun
    obtain ⟨p, hp⟩ := (hs i).1.progress (hrcv i) (hs i).2 hnot
    exact capnpStep_of_conn hok.up hp
  · have hview := hlocal.refines hkeep hrun hinit i ConnView.view (fun _ _ _ h => h.view_step)
    exact (RemoteCall.Consistent.of_reachable hview).complete (decide_eq_true hdone)

end System

end RpcTransport

import RpcTransport.CapnpRuns

/-!
# A Cap'n Proto server whose receive function may throw

An exception of `rcvFn` takes the one server process down, with all its sessions.  Until then
nothing has been refused, so the system has moved like one whose receive functions all return
(`CapnpSetup.answering`), and from then on the clients go on as if the server had stopped just
before it took the fatal `done`.

* `capnpStep_answering` — while the server is up a move is one of the other system, or the fatal
  `done`;
* `connMove_of_down` — when it is down, only clients move;
* `Reached` — the state of a system that may be down beside one of a system that is up;
* `Reached.step` — every move keeps them side by side, is seen by its own session alone, and lowers
  `sessionWork`.
-/

namespace RpcTransport

open Transition

/-! ### Receive functions that return -/

/-- What `rcvFn` makes of the request, if it returns. -/
def CapnpSetup.answer (x : CapnpSetup) : Msg :=
  match x.rcvFn x.request [] with
  | .ok rsp => rsp
  | .error _ => []

/-- The same session, whose receive function has an empty answer where that of `x` throws. -/
def CapnpSetup.answering (x : CapnpSetup) : CapnpSetup :=
  { x with
    rcvFn := fun rcvMsg sndMsg =>
      match x.rcvFn rcvMsg sndMsg with
      | .ok rsp => .ok rsp
      | .error _ => .ok [] }

/-- `rcvFn` throws on the request. -/
def CapnpSetup.Refused (x : CapnpSetup) : Prop := ∃ e, x.rcvFn x.request [] = .error e

theorem CapnpSetup.answering_rcvFn (x : CapnpSetup) :
    x.answering.rcvFn x.answering.request [] = .ok x.answer := by
  simp only [CapnpSetup.answering, CapnpSetup.answer]
  cases x.rcvFn x.request [] <;> rfl

theorem CapnpSetup.answer_of_ok {x : CapnpSetup} (h : ¬ x.Refused) :
    x.rcvFn x.request [] = .ok x.answer := by
  rw [CapnpSetup.answer]
  cases hrcv : x.rcvFn x.request [] with
  | ok rsp => rfl
  | error e => exact (h ⟨e, hrcv⟩).elim

/-- Where `rcvFn` returns, `done` does the same in both. -/
theorem CapnpSetup.answering_done {x : CapnpSetup} {o o' : ReqSvcImpl}
    (h : o.done x.rcvFn = .ok o') : o.done x.answering.rcvFn = .ok o' := by
  simp only [ReqSvcImpl.done, CapnpSetup.answering] at h ⊢
  cases hrcv : x.rcvFn o.rcvMsg o.sndMsg with
  | ok rsp =>
      rw [hrcv] at h
      exact h
  | error e =>
      rw [hrcv] at h
      cases h

/-! ### Without the server -/

/-- What can happen to a connection without the server. -/
inductive ConnMove (x : CapnpSetup) (v : CapnpConn) : CapnpConn → Prop
  | start (hconn : v.connected = true) (hpc : v.stream = none) :
      ConnMove x v { v with stream := some (.send 0), toServer := v.toServer ++ [.reqReply] }
  | send {k : ℕ} (hconn : v.connected = true) (hpc : v.stream = some (.send k)) :
      ConnMove x v { v with
        stream := some (sendRequestStream x.request k).1
        toServer := v.toServer ++ (sendRequestStream x.request k).2.map .call }
  | ack {k : ℕ} (hconn : v.connected = true) (hpc : v.stream = some (.sent k))
      (hflow : v.toServer.length ≤ x.flow) :
      ConnMove x v { v with stream := some (.send (k + 1)) }
  | receive {m : ToClient} {ms : List ToClient} (hconn : v.connected = true)
      (hqueue : v.toClient = m :: ms) : ConnMove x v ({ v with toClient := ms }.receive m)
  | lost (j : ℕ) (hconn : v.connected = true) :
      ConnMove x v { v with
        connected := false, toServer := v.toServer.take j, toClient := [] }

variable {ι : Type} [DecidableEq ι] {x : ι → CapnpSetup} {s s' t : CapnpState ι} {i j : ι}

/-- With the server down, all moves are of this kind. -/
theorem connMove_of_down (hdown : s.down = true) (hstep : LossyStep x i s s') :
    ∃ v, ConnMove (x i) (s.conn i) v ∧ s' = s.set i v := by
  have hup : s.down ≠ false := by rw [hdown]; exact Bool.noConfusion
  rcases hstep with hstep | hbreak
  · cases hstep with
    | start hconn hpc => exact ⟨_, .start hconn hpc, rfl⟩
    | send hconn hpc => exact ⟨_, .send hconn hpc, rfl⟩
    | ack hconn hpc hflow => exact ⟨_, .ack hconn hpc hflow, rfl⟩
    | receive hconn hqueue => exact ⟨_, .receive hconn hqueue, rfl⟩
    | reqReply h => exact (hup h).elim
    | sendChunk h => exact (hup h).elim
    | done h => exact (hup h).elim
    | abort h => exact (hup h).elim
    | reply h => exact (hup h).elim
    | ackReply h => exact (hup h).elim
    | replyReturned h => exact (hup h).elim
  · cases hbreak with
    | mk j hconn => exact ⟨_, .lost j hconn, rfl⟩

/-- And a connection can move like this in any state of the server. -/
theorem ConnMove.lossyStep {v : CapnpConn} (h : ConnMove (x i) (t.conn i) v) :
    LossyStep x i t (t.set i v) := by
  cases h with
  | start hconn hpc => exact .inl (.start hconn hpc)
  | send hconn hpc => exact .inl (.send hconn hpc)
  | ack hconn hpc hflow => exact .inl (.ack hconn hpc hflow)
  | receive hconn hqueue => exact .inl (.receive hconn hqueue)
  | lost j hconn => exact .inr (.mk j hconn)

theorem ConnMove.answering {y : CapnpSetup} {v v' : CapnpConn} (h : ConnMove y v v') :
    ConnMove y.answering v v' := by
  cases h with
  | start hconn hpc => exact .start hconn hpc
  | send hconn hpc => exact .send hconn hpc
  | ack hconn hpc hflow => exact .ack hconn hpc hflow
  | receive hconn hqueue => exact .receive hconn hqueue
  | lost j hconn => exact .lost j hconn

theorem ConnMove.reqSvc {y : CapnpSetup} {v v' : CapnpConn} (h : ConnMove y v v') :
    v'.reqSvc = v.reqSvc ∧ v'.task = v.task := by
  cases h with
  | @receive m ms hconn hqueue =>
      cases m with
      | call c => cases c <;> exact ⟨rfl, rfl⟩
      | returned => exact ⟨rfl, rfl⟩
  | _ => exact ⟨rfl, rfl⟩

/-! ### The fatal `done` -/

/-- `done` is taken when all the chunks are there, from a client that waits for it. -/
structure AtDone (x : CapnpSetup) (v : CapnpConn) (o : ReqSvcImpl) : Prop where
  queue : v.toServer = [.call .done]
  request : o.rcvMsg = x.request
  sndMsg : o.sndMsg = []
  calls : o.calls = []
  stream : v.stream = some .doneSent
  toClient : v.toClient = []
  reply : v.reply = []

theorem ConnInv.atDone {y : CapnpSetup} {rsp : Msg} {v : CapnpConn} {o : ReqSvcImpl}
    {ms : List ToServer} (h : ConnInv y rsp v (some o)) (hqueue : v.toServer = .call .done :: ms) :
    AtDone y v o := by
  cases h with
  | calling hquiet hsnd hcalls hstream hstreaming =>
      rw [hqueue] at hstreaming
      rcases hstreaming.pop with ⟨buf, hcall, -⟩ | ⟨-, rfl, rfl, hall⟩
      · cases hcall
      · exact ⟨hqueue, hall, hsnd, hcalls, hstream, hquiet.toClient, hquiet.reply⟩
  | replying _ htoServer => cases htoServer.symm.trans hqueue
  | replied _ _ htoServer =>
      rcases htoServer with htoServer | ⟨-, htoServer⟩
      · cases htoServer.symm.trans hqueue
      · cases htoServer.symm.trans hqueue
  | returning _ _ htoServer => cases htoServer.symm.trans hqueue
  | returned _ _ htoServer => cases htoServer.symm.trans hqueue

/-- The server takes the last message of connection `i`, on whose object `n` the receive function
throws. -/
def CapnpState.aborted (t : CapnpState ι) (i : ι) (n : ℕ) : CapnpState ι :=
  { t.set i { t.conn i with toServer := [] } with
    heap := Function.update t.heap n
      { t.heap n with calls := (t.heap n).calls ++ [(t.heap n).rcvMsg] }
    down := true }

omit [DecidableEq ι] in
theorem CapnpState.view_of_cap {n : ℕ} (hcap : (s.conn i).reqSvc = some n) :
    s.view i = (s.conn i, some (s.heap n)) := by
  simp only [CapnpState.view, hcap, Option.map_some]

/-- **While the server is up** a move is one of the system whose receive functions return, or the
server takes a `done` on which the receive function throws. -/
theorem capnpStep_answering
    (hinv : ConnInv (x i).answering (x i).answer (s.view i).1 (s.view i).2)
    (hstep : CapnpStep x i s s') :
    (CapnpStep (fun i => (x i).answering) i s s' ∧ s'.down = s.down ∧
      ((x i).Refused → s.calls i = [] → s'.calls i = [])) ∨
    ∃ n, (s.conn i).reqSvc = some n ∧ AtDone (x i) (s.conn i) (s.heap n) ∧ (x i).Refused ∧
      s' = s.aborted i n := by
  have hatDone : ∀ {n ms}, (s.conn i).reqSvc = some n →
      (s.conn i).toServer = .call .done :: ms → AtDone (x i) (s.conn i) (s.heap n) := by
    intro n ms hcap hqueue
    rw [CapnpState.view_of_cap hcap] at hinv
    obtain ⟨h₁, h₂, h₃, h₄, h₅, h₆, h₇⟩ := hinv.atDone hqueue
    exact ⟨h₁, h₂, h₃, h₄, h₅, h₆, h₇⟩
  have hset : ∀ {v : CapnpConn}, v.reqSvc = (s.conn i).reqSvc → s.calls i = [] →
      (s.set i v).calls i = [] := by
    intro v hsame hnil
    rw [← hnil]
    simp only [CapnpState.calls, CapnpState.view, CapnpState.set_conn_self, hsame]
    rfl
  cases hstep with
  | start hconn hpc => exact .inl ⟨.start hconn hpc, rfl, fun _ => hset rfl⟩
  | send hconn hpc => exact .inl ⟨.send hconn hpc, rfl, fun _ => hset rfl⟩
  | ack hconn hpc hflow => exact .inl ⟨.ack hconn hpc hflow, rfl, fun _ => hset rfl⟩
  | @receive m ms hconn hqueue =>
      exact .inl ⟨.receive hconn hqueue, rfl,
        fun _ => hset (ConnMove.receive (x := x i) hconn hqueue).reqSvc.1⟩
  | reqReply hup hqueue =>
      refine .inl ⟨.reqReply hup hqueue, rfl, fun _ _ => ?_⟩
      simp only [CapnpState.calls, CapnpState.view, CapnpState.set_conn_self, Option.map_some,
        Function.update_self]
      rfl
  | @sendChunk chunk ms n hup hqueue hcap =>
      refine .inl ⟨.sendChunk hup hqueue hcap, rfl, fun _ hnil => ?_⟩
      rw [← hnil]
      simp only [CapnpState.calls, CapnpState.view, CapnpState.set_conn_self, hcap,
        Option.map_some, Function.update_self]
      rfl
  | @done ms n o hup hqueue hcap hdone =>
      refine .inl ⟨.done hup hqueue hcap (CapnpSetup.answering_done hdone), rfl, ?_⟩
      rintro ⟨e, hthrows⟩ -
      have hat := hatDone hcap hqueue
      rw [ReqSvcImpl.done, hat.request, hat.sndMsg, hthrows] at hdone
      cases hdone
  | @abort ms n e hup hqueue hcap hdone =>
      have hat := hatDone hcap hqueue
      obtain ⟨-, rfl⟩ := List.cons.inj (hqueue.symm.trans hat.queue)
      refine .inr ⟨n, hcap, hat, ⟨e, ?_⟩, rfl⟩
      rw [ReqSvcImpl.done, hat.request, hat.sndMsg] at hdone
      cases hrcv : (x i).rcvFn (x i).request [] with
      | ok rsp =>
          rw [hrcv] at hdone
          cases hdone
      | error e' =>
          rw [hrcv] at hdone
          cases hdone
          rfl
  | reply hup hconn hpc hcap =>
      exact .inl ⟨.reply hup hconn hpc hcap, rfl, fun _ => hset rfl⟩
  | ackReply hup hconn hpc hflow =>
      exact .inl ⟨.ackReply hup hconn hpc hflow, rfl, fun _ => hset rfl⟩
  | replyReturned hup hqueue =>
      exact .inl ⟨.replyReturned hup hqueue, rfl, fun _ => hset rfl⟩

/-! ### Until the server is down, and after -/

/-- The state `s` of a system that may be down, and the state `t` of one that is up: the same state,
or the one that has the fatal `done` still under way. -/
inductive Before (x : ι → CapnpSetup) (s : CapnpState ι) : CapnpState ι → Prop
  | up (hup : s.down = false) : Before x s s
  | down {t : CapnpState ι} {i : ι} {n : ℕ} (hcap : (t.conn i).reqSvc = some n)
      (hat : AtDone (x i) (t.conn i) (t.heap n)) (hrefused : (x i).Refused)
      (hs : s = t.aborted i n) : Before x s t

/-- The system has got to `s` as one whose receive functions all return has got to `t`, in which
nothing was asked that would have been refused. -/
structure Reached (x : ι → CapnpSetup) (s t : CapnpState ι) : Prop where
  run : ∃ ls, Run (LossyStep fun i => (x i).answering) {} ls t
  before : Before x s t
  uncalled : ∀ i, (x i).Refused → t.calls i = []

/-- The moves session `i` has left: those of its connection, its breaking, and the fatal `done`. -/
def sessionWork (x : ι → CapnpSetup) (s : CapnpState ι) (i : ι) : ℕ :=
  ConnView.work (x i) (x i).answer (s.view i) + (s.conn i).connected.toNat +
    (1 - (s.calls i).length)

theorem Reached.init (x : ι → CapnpSetup) : Reached x {} {} :=
  ⟨⟨[], .refl⟩, .up rfl, fun _ _ => rfl⟩

theorem Reached.heapOk (h : Reached x s t) : HeapOk t := by
  obtain ⟨ls, hrun⟩ := h.run
  exact (hrun.invariant (capnpInit _ fun i => (x i).answer)
    ((lossyStep_local fun i => (x i).answering_rcvFn).invariant fun _ _ _ _ h => h.inv)).1

theorem Reached.conn (h : Reached x s t) (i : ι) :
    ConnInv (x i).answering (x i).answer (t.view i).1 (t.view i).2 ∧
      RemoteCall.Consistent (x i).request (x i).answer (t.view i).view := by
  obtain ⟨ls, hrun⟩ := h.run
  exact capnp_refines (fun i => (x i).answering_rcvFn) hrun i

theorem ConnBreak.work_eq {p p' : ConnView} (h : ConnBreak p p') (y : CapnpSetup) (rsp : Msg) :
    p.1.connected = true ∧ p'.1.connected = false ∧ p'.work y rsp = p.work y rsp := by
  cases h with
  | mk j hconn => exact ⟨hconn, rfl, rfl⟩

/-- A move of the system whose receive functions return. -/
theorem answering_step (hok : HeapOk t)
    (hinv : ConnInv (x j).answering (x j).answer (t.view j).1 (t.view j).2) {t' : CapnpState ι}
    (hstep : LossyStep (fun i => (x i).answering) j t t') :
    (∀ i, i ≠ j → t'.view i = t.view i) ∧ sessionWork x t' j < sessionWork x t j := by
  rcases hstep with hstep | hbreak
  · obtain ⟨-, hown, hrest⟩ := capnpStep_conn hok
      (hinv.settled (x j).answering_rcvFn) hstep
    refine ⟨hrest, ?_⟩
    have hmove := hinv.step (x j).answering_rcvFn hown
    have hwork : ConnView.work (x j) (x j).answer (t'.view j)
        < ConnView.work (x j) (x j).answer (t.view j) := hmove.work_lt
    have hconn : (t'.conn j).connected = (t.conn j).connected := hmove.connected
    have hcalls : (t.calls j).length ≤ (t'.calls j).length := by
      rcases hmove.view_step with hserve | hsame
      · exact hserve.calls_le
      · exact (congrArg (fun p => p.calls.length) hsame).ge
    simp only [sessionWork, hconn]
    omega
  · obtain ⟨-, hown, hrest⟩ := disconnect_conn hok hbreak
    refine ⟨hrest, ?_⟩
    obtain ⟨hold, hnew, hwork⟩ := hown.work_eq (x j) (x j).answer
    have hold : (t.conn j).connected = true := hold
    have hnew : (t'.conn j).connected = false := hnew
    have hcalls : t'.calls j = t.calls j := congrArg RemoteCall.State.calls (hinv.lose hown).2
    rw [sessionWork, sessionWork, hcalls, hwork, hold, hnew]
    exact Nat.add_lt_add_right (Nat.lt_succ_self _) _

omit [DecidableEq ι] in
theorem sessionWork_congr (h : s'.view i = s.view i) :
    sessionWork x s' i = sessionWork x s i := by
  have hconn : s'.conn i = s.conn i := congrArg Prod.fst h
  have hcalls : s'.calls i = s.calls i := congrArg (fun p => p.view.calls) h
  rw [sessionWork, sessionWork, h, hconn, hcalls]

theorem CapnpState.set_view_of_ne (s : CapnpState ι) (v : CapnpConn) (h : j ≠ i) :
    (s.set i v).view j = s.view j := by
  simp only [CapnpState.view, CapnpState.set_conn_of_ne s v h]
  rfl

theorem CapnpState.set_calls {v : CapnpConn} (hsame : v.reqSvc = (s.conn i).reqSvc) (j : ι) :
    (s.set i v).calls j = s.calls j := by
  simp only [CapnpState.calls, CapnpState.view, CapnpState.set_reqSvc hsame]
  rfl

/-- The fatal `done` is seen by its own session alone. -/
theorem CapnpState.aborted_view_of_ne (hok : HeapOk t) {n : ℕ}
    (hcap : (t.conn i).reqSvc = some n) (hne : j ≠ i) : (t.aborted i n).view j = t.view j := by
  have hother : ∀ m, (t.conn j).reqSvc = some m → m ≠ n := by
    rintro m hm rfl
    exact hne (hok.own j i m hm hcap)
  simp only [CapnpState.view, CapnpState.aborted, CapnpState.set_conn_of_ne t _ hne]
  cases hj : (t.conn j).reqSvc with
  | none => rfl
  | some m => simp only [Option.map_some, Function.update_of_ne (hother m hj)]

theorem CapnpState.aborted_view {n : ℕ} (hcap : (t.conn i).reqSvc = some n)
    (hat : AtDone (x i) (t.conn i) (t.heap n)) :
    (t.aborted i n).view i = ({ t.conn i with toServer := [] },
      some { t.heap n with calls := [(x i).request] }) := by
  simp only [CapnpState.view, CapnpState.aborted, CapnpState.set_conn_self, hcap,
    Option.map_some, Function.update_self, hat.calls, hat.request, List.nil_append]

theorem aborted_work {n : ℕ} (hcap : (t.conn i).reqSvc = some n)
    (hat : AtDone (x i) (t.conn i) (t.heap n)) :
    sessionWork x (t.aborted i n) i + 1 = sessionWork x t i := by
  have hcalls : (t.aborted i n).calls i = [(x i).request] := by
    rw [CapnpState.calls, CapnpState.aborted_view hcap hat]
    rfl
  have hnil : t.calls i = [] := by
    rw [CapnpState.calls, CapnpState.view_of_cap hcap]
    exact hat.calls
  have hconn : ((t.aborted i n).conn i).connected = (t.conn i).connected := by
    simp only [CapnpState.aborted, CapnpState.set_conn_self]
  rw [sessionWork, sessionWork, hcalls, hnil, hconn, CapnpState.aborted_view hcap hat,
    CapnpState.view_of_cap hcap]
  rfl

/-- What the move of session `j` does to the system. -/
structure SessionMoved (x : ι → CapnpSetup) (j : ι) (s s' : CapnpState ι) : Prop where
  reached : ∃ t, Reached x s' t
  other : ∀ i, i ≠ j → s'.view i = s.view i
  work_lt : sessionWork x s' j < sessionWork x s j

/-- A move of a session the server is not down for. -/
theorem Reached.move_other {n : ℕ} (h : Reached x (t.aborted i n) t)
    (hcap : (t.conn i).reqSvc = some n) (hat : AtDone (x i) (t.conn i) (t.heap n))
    (hrefused : (x i).Refused) {v : CapnpConn} (hne : j ≠ i)
    (hmove : ConnMove (x j) (t.conn j) v) :
    SessionMoved x j (t.aborted i n) ((t.aborted i n).set j v) := by
  obtain ⟨ls, hrun⟩ := h.run
  have hstep : LossyStep (fun i => (x i).answering) j t (t.set j v) := hmove.answering.lossyStep
  have hconn : (t.set j v).conn i = t.conn i := CapnpState.set_conn_of_ne t v hne.symm
  have hs : (t.aborted i n).set j v = (t.set j v).aborted i n := by
    simp only [CapnpState.aborted, hconn]
    simp only [CapnpState.set, Function.update_comm hne]
  have hreached : Reached x ((t.set j v).aborted i n) (t.set j v) := by
    refine ⟨⟨_, hrun.tail hstep⟩, .down (i := i) (n := n) ?_ ?_ hrefused rfl, fun k hk => ?_⟩
    · rw [hconn, hcap]
    · rw [hconn]
      exact hat
    · rw [CapnpState.set_calls hmove.reqSvc.1]
      exact h.uncalled k hk
  rw [hs]
  refine ⟨⟨_, hreached⟩, fun k hk => ?_, ?_⟩
  · rw [← hs]
    exact CapnpState.set_view_of_ne _ _ hk
  · have hcap' : ((t.set j v).conn i).reqSvc = some n := by rw [hconn, hcap]
    rw [sessionWork_congr (CapnpState.aborted_view_of_ne hreached.heapOk hcap' hne),
      sessionWork_congr (CapnpState.aborted_view_of_ne h.heapOk hcap hne)]
    exact (answering_step h.heapOk (h.conn j).1 hstep).2

/-- The session that is refused can only break. -/
theorem Reached.move_refused {n : ℕ} (h : Reached x (t.aborted i n) t)
    (hcap : (t.conn i).reqSvc = some n) (hat : AtDone (x i) (t.conn i) (t.heap n))
    (hrefused : (x i).Refused) {v : CapnpConn}
    (hmove : ConnMove (x i) ((t.aborted i n).conn i) v) :
    SessionMoved x i (t.aborted i n) ((t.aborted i n).set i v) := by
  obtain ⟨ls, hrun⟩ := h.run
  have hself : (t.aborted i n).conn i = { t.conn i with toServer := [] } := by
    simp only [CapnpState.aborted, CapnpState.set_conn_self]
  rw [hself] at hmove
  obtain ⟨k, hconn, rfl⟩ : ∃ k : ℕ, (t.conn i).connected = true ∧ v = { t.conn i with
      connected := false, toServer := [].take k, toClient := [] } := by
    cases hmove with
    | start _ hpc => cases hat.stream.symm.trans hpc
    | send _ hpc => cases hat.stream.symm.trans hpc
    | ack _ hpc => cases hat.stream.symm.trans hpc
    | receive _ hqueue => cases hat.toClient.symm.trans hqueue
    | lost k hconn => exact ⟨k, hconn, rfl⟩
  -- the fatal `done` is kept under way
  let w : CapnpConn := { t.conn i with
    connected := false, toServer := [.call .done], toClient := [] }
  have hstep : LossyStep (fun i => (x i).answering) i t (t.set i w) := by
    have hbreak : Disconnect i t _ := .mk 1 hconn
    rw [hat.queue] at hbreak
    exact .inr hbreak
  have hconn' : (t.set i w).conn i = w := CapnpState.set_conn_self t i w
  have hs : (t.aborted i n).set i { t.conn i with
      connected := false, toServer := [].take k, toClient := [] } = (t.set i w).aborted i n := by
    simp only [CapnpState.aborted, hconn', List.take_nil]
    simp only [CapnpState.set, Function.update_idem, w]
  have hcap' : ((t.set i w).conn i).reqSvc = some n := by rw [hconn', ← hcap]
  have hat' : AtDone (x i) ((t.set i w).conn i) ((t.set i w).heap n) := by
    rw [hconn']
    exact ⟨rfl, hat.request, hat.sndMsg, hat.calls, hat.stream, rfl, hat.reply⟩
  rw [hs]
  refine ⟨⟨_, ⟨_, hrun.tail hstep⟩, .down hcap' hat' hrefused rfl, fun k hk => ?_⟩,
    fun k hk => ?_, ?_⟩
  · rw [CapnpState.set_calls (show w.reqSvc = (t.conn i).reqSvc from rfl)]
    exact h.uncalled k hk
  · rw [← hs]
    exact CapnpState.set_view_of_ne _ _ hk
  · have hlt := (answering_step h.heapOk (h.conn i).1 hstep).2
    have hold := aborted_work hcap hat
    have hnew := aborted_work hcap' hat'
    omega

/-- **Every move**, whatever the receive functions do and whatever has broken. -/
theorem Reached.step (h : Reached x s t) (hstep : LossyStep x j s s') :
    SessionMoved x j s s' := by
  cases h.before with
  | up hup =>
      obtain ⟨ls, hrun⟩ := h.run
      have hmoved : ∀ {u : CapnpState ι}, u.down = s.down →
          LossyStep (fun i => (x i).answering) j s u →
          ((x j).Refused → s.calls j = [] → u.calls j = []) → SessionMoved x j s u := by
        intro u hdown hstep' hcalls
        obtain ⟨hrest, hlt⟩ := answering_step h.heapOk (h.conn j).1 hstep'
        refine ⟨⟨u, ⟨_, hrun.tail hstep'⟩, .up (hdown.trans hup), fun i hi => ?_⟩, hrest, hlt⟩
        rcases eq_or_ne i j with rfl | hne
        · exact hcalls hi (h.uncalled i hi)
        · rw [CapnpState.calls, hrest i hne]
          exact h.uncalled i hi
      rcases hstep with hstep | hbreak
      · rcases capnpStep_answering (h.conn j).1 hstep with
          ⟨hstep', hdown, hcalls⟩ | ⟨n, hcap, hat, hrefused, rfl⟩
        · exact hmoved hdown (.inl hstep') hcalls
        · refine ⟨⟨s, h.run, .down hcap hat hrefused rfl, h.uncalled⟩, fun i hne => ?_, ?_⟩
          · exact CapnpState.aborted_view_of_ne h.heapOk hcap hne
          · have := aborted_work hcap hat
            omega
      · refine hmoved ?_ (.inr hbreak) fun _ hnil => ?_
        · cases hbreak
          rfl
        · cases hbreak with
          | mk k hconn =>
              have hmove : ConnMove (x j) (s.conn j) _ := .lost k hconn
              exact (CapnpState.set_calls hmove.reqSvc.1 j).trans hnil
  | @down _ i n hcap hat hrefused hs =>
      subst hs
      obtain ⟨v, hmove, rfl⟩ := connMove_of_down rfl hstep
      rcases eq_or_ne j i with rfl | hne
      · exact h.move_refused hcap hat hrefused hmove
      · have hconn : (t.aborted i n).conn j = t.conn j := CapnpState.set_conn_of_ne t _ hne
        rw [hconn] at hmove
        exact h.move_other hcap hat hrefused hne hmove

theorem Reached.of_run {ls : List ι} (hrun : Run (LossyStep x) {} ls s) : ∃ t, Reached x s t :=
  hrun.invariant (P := fun s => ∃ t, Reached x s t) ⟨_, Reached.init x⟩
    fun _ _ _ ⟨_, h⟩ hstep => (h.step hstep).reached

end RpcTransport

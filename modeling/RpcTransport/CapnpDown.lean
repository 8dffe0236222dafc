import RpcTransport.CapnpAbort

/-!
# Cap'n Proto sessions beside one that is refused

* `capnp_served_or_down` — what holds at any time, for receive functions of any kind;
* `capnp_session_ends` — no session goes on for ever, nor is it stuck while the server is up;
* `capnp_abort_ends` — what becomes of the sessions once the server is down.
-/

namespace RpcTransport

open Transition

variable {ι : Type} [DecidableEq ι] {x : ι → CapnpSetup} {s s' t : CapnpState ι} {i j : ι}

/-! ### At any time -/

/-- What a session is promised, with a receive function of any kind. -/
structure SessionOk (x : CapnpSetup) (p : ConnView) : Prop where
  /-- `rcvFn` is called at most once, and on the whole request -/
  once : p.view.calls = [] ∨ p.view.calls = [x.request]
  /-- and not before the client has sent all of it -/
  asked : p.view.calls ≠ [] → p.1.stream = some .doneSent ∨ p.1.stream = some .finished
  /-- what the client has is a beginning of what `rcvFn` has returned -/
  reply : p.1.reply ≠ [] → ∃ rsp, x.rcvFn x.request [] = .ok rsp ∧
    p.view.calls = [x.request] ∧ p.1.reply <+: rsp
  /-- and all of it when `sendReq` returns -/
  returned : p.1.stream = some .finished →
    x.rcvFn x.request [] = .ok p.1.reply ∧ p.view.calls = [x.request]
  inRange : p.1.stream ≠ some .outOfRange ∧ p.1.task ≠ some .outOfRange

theorem Reached.sessionOk (h : Reached x s t) (i : ι) : SessionOk (x i) (t.view i) := by
  obtain ⟨hinv, hseen⟩ := h.conn i
  have hok : (t.view i).view.calls ≠ [] → (x i).rcvFn (x i).request [] = .ok (x i).answer :=
    fun hcalls => CapnpSetup.answer_of_ok fun hrefused => hcalls (h.uncalled i hrefused)
  have hasked : (t.view i).view.calls ≠ [] → (t.view i).view.calls = [(x i).request] :=
    fun hcalls => hseen.once.resolve_left hcalls
  refine ⟨hseen.once, hinv.asked.1, fun hne => ?_, fun hfin => ?_, hinv.asked.2⟩
  · have hcalls : (t.view i).view.calls ≠ [] := fun hnil => hne (hseen.unserved hnil).1
    exact ⟨_, hok hcalls, hasked hcalls, hseen.ordered⟩
  · obtain ⟨hcalls, hreply⟩ := hseen.complete (decide_eq_true hfin)
    have hne : (t.view i).view.calls ≠ [] := by
      rw [hcalls]
      exact List.cons_ne_nil _ _
    exact ⟨(hok hne).trans (congrArg _ hreply.symm), hcalls⟩

/-- The session that is refused has had its call of `rcvFn`, and nothing has come of it. -/
theorem AtDone.sessionOk {n : ℕ} (hcap : (t.conn i).reqSvc = some n)
    (hat : AtDone (x i) (t.conn i) (t.heap n)) (h : SessionOk (x i) (t.view i)) :
    SessionOk (x i) ((t.aborted i n).view i) := by
  rw [CapnpState.aborted_view hcap hat]
  refine ⟨.inr rfl, fun _ => .inl hat.stream, fun hne => (hne hat.reply).elim, fun hfin => ?_,
    h.inRange⟩
  cases hat.stream.symm.trans hfin

theorem sessionOk_of_run {ls : List ι} (hrun : Run (LossyStep x) {} ls s) (i : ι) :
    SessionOk (x i) (s.view i) := by
  obtain ⟨t, h⟩ := Reached.of_run hrun
  cases h.before with
  | up hup => exact h.sessionOk i
  | @down _ j n hcap hat hrefused hs =>
      subst hs
      rcases eq_or_ne i j with rfl | hne
      · exact hat.sessionOk hcap (h.sessionOk i)
      · rw [CapnpState.aborted_view_of_ne h.heapOk hcap hne]
        exact h.sessionOk i

theorem down_iff_of_run {ls : List ι} (hrun : Run (LossyStep x) {} ls s) :
    s.down = true ↔ ∃! i, s.calls i = [(x i).request] ∧ (x i).Refused := by
  obtain ⟨t, h⟩ := Reached.of_run hrun
  have hnot : ∀ i, (x i).Refused → t.calls i ≠ [(x i).request] := by
    intro i hi hcalls
    rw [h.uncalled i hi] at hcalls
    cases hcalls
  cases h.before with
  | up hup =>
      refine ⟨fun hdown => ?_, fun ⟨i, ⟨hcalls, hi⟩, _⟩ => (hnot i hi hcalls).elim⟩
      rw [hup] at hdown
      cases hdown
  | @down _ i n hcap hat hrefused hs =>
      subst hs
      refine ⟨fun _ => ⟨i, ⟨?_, hrefused⟩, fun j ⟨hcalls, hj⟩ => ?_⟩, fun _ => rfl⟩
      · rw [CapnpState.calls, CapnpState.aborted_view hcap hat]
        rfl
      · by_contra hne
        rw [CapnpState.calls, CapnpState.aborted_view_of_ne h.heapOk hcap hne] at hcalls
        exact hnot j hj hcalls

/-- **Served, or down.**  Any number of sessions of one server whose receive function may throw, in
every interleaving and with connections that break at any point: every session is safe, and the
server is down exactly when `rcvFn` was called with a request it refuses, which is so for one
session and no other. -/
theorem capnp_served_or_down {ls : List ι} (hrun : Run (LossyStep x) {} ls s) :
    (∀ i, SessionOk (x i) (s.view i)) ∧
      (s.down = true ↔ ∃! i, s.calls i = [(x i).request] ∧ (x i).Refused) :=
  ⟨sessionOk_of_run hrun, down_iff_of_run hrun⟩

theorem capnpStep_of_answering (hstep : CapnpStep (fun i => (x i).answering) i s s') :
    ∃ s', CapnpStep x i s s' := by
  cases hstep with
  | start hconn hpc => exact ⟨_, .start hconn hpc⟩
  | send hconn hpc => exact ⟨_, .send hconn hpc⟩
  | ack hconn hpc hflow => exact ⟨_, .ack hconn hpc hflow⟩
  | receive hconn hqueue => exact ⟨_, .receive hconn hqueue⟩
  | reqReply hup hqueue => exact ⟨_, .reqReply hup hqueue⟩
  | sendChunk hup hqueue hcap => exact ⟨_, .sendChunk hup hqueue hcap⟩
  | @done ms n o hup hqueue hcap hdone =>
      cases hresult : (s.heap n).done (x i).rcvFn with
      | ok o' => exact ⟨_, .done hup hqueue hcap hresult⟩
      | error e => exact ⟨_, .abort hup hqueue hcap hresult⟩
  | @abort ms n e hup hqueue hcap hdone =>
      cases hresult : (s.heap n).done (x i).rcvFn with
      | ok o' => exact ⟨_, .done hup hqueue hcap hresult⟩
      | error e => exact ⟨_, .abort hup hqueue hcap hresult⟩
  | reply hup hconn hpc hcap => exact ⟨_, .reply hup hconn hpc hcap⟩
  | ackReply hup hconn hpc hflow => exact ⟨_, .ackReply hup hconn hpc hflow⟩
  | replyReturned hup hqueue => exact ⟨_, .replyReturned hup hqueue⟩

omit [DecidableEq ι] in
theorem sessionWork_init (x : ι → CapnpSetup) (i : ι) :
    sessionWork x {} i = 3 * ((x i).request.length + (x i).answer.length) + 10 := by
  simp only [sessionWork, ConnView.work, CapnpState.calls, CapnpState.view, ConnView.view,
    Option.map_none, Option.elim, streamWork, List.length_nil, cond_false, Bool.toNat_true]
  omega

/-- **Every session ends**: it moves boundedly often, and while the server is up and its connection
holds it can go on until `sendReq` has returned. -/
theorem capnp_session_ends {ls : List ι} (hrun : Run (LossyStep x) {} ls s) (i : ι) :
    ls.count i ≤ 3 * ((x i).request.length + (x i).answer.length) + 10 ∧
      (s.down = false → (s.conn i).connected = true → (s.conn i).stream ≠ some .finished →
        ∃ s', CapnpStep x i s s') := by
  refine ⟨?_, fun hup hconn hnot => ?_⟩
  · have hle := hrun.count_le (P := fun s => ∃ t, Reached x s t) i (fun s => sessionWork x s i)
      ⟨_, Reached.init x⟩ (fun _ _ _ ⟨_, h⟩ hstep => (h.step hstep).reached)
      (fun _ _ ⟨_, h⟩ hstep => (h.step hstep).work_lt)
      (fun _ _ _ hne ⟨_, h⟩ hstep => sessionWork_congr ((h.step hstep).other i hne.symm))
    have hinit := sessionWork_init x i
    omega
  · obtain ⟨t, h⟩ := Reached.of_run hrun
    cases h.before with
    | up =>
        obtain ⟨p, hp⟩ := (h.conn i).1.progress (x i).answering_rcvFn hconn hnot
        obtain ⟨s', hstep⟩ := capnpStep_of_conn (x := fun i => (x i).answering) (i := i) hup hp
        exact capnpStep_of_answering hstep
    | down hcap hat hrefused hs =>
        subst hs
        cases hup

/-! ### Once the server is down -/

/-- The chunks among the messages to a client. -/
def chunksOf (queue : List ToClient) : Msg :=
  queue.filterMap fun m =>
    match m with
    | .call (.sendChunk chunk) => some chunk
    | _ => none

/-- `sendReq` has returned, or the return of `done` is on its way. -/
def CapnpConn.Answered (v : CapnpConn) : Prop :=
  v.stream = some .finished ∨ v.connected = true ∧ .returned ∈ v.toClient

/-- What a connection comes to without the server: nothing arrives but what was under way. -/
structure Leftover (v v' : CapnpConn) : Prop where
  reqSvc : v'.reqSvc = v.reqSvc
  task : v'.task = v.task
  arrived : v'.reply ++ chunksOf v'.toClient <+: v.reply ++ chunksOf v.toClient
  answered : v'.Answered → v.Answered

theorem Leftover.refl (v : CapnpConn) : Leftover v v :=
  ⟨rfl, rfl, List.prefix_rfl, id⟩

theorem Leftover.trans {v v' v'' : CapnpConn} (h : Leftover v v') (h' : Leftover v' v'') :
    Leftover v v'' :=
  ⟨h'.reqSvc.trans h.reqSvc, h'.task.trans h.task, h'.arrived.trans h.arrived,
    fun hret => h.answered (h'.answered hret)⟩

theorem sendStream_ne_finished (m : Msg) (k : ℕ) : (sendStream m k).1 ≠ .finished := by
  rw [sendStream]
  split_ifs with heq
  · exact ChunkPc.noConfusion
  · cases m[k]? with
    | none => exact ChunkPc.noConfusion
    | some buf => exact ChunkPc.noConfusion

theorem ConnMove.arrived {y : CapnpSetup} {v v' : CapnpConn} (h : ConnMove y v v') :
    v'.reply ++ chunksOf v'.toClient <+: v.reply ++ chunksOf v.toClient := by
  cases h with
  | @receive m ms hconn hqueue =>
      rw [hqueue]
      cases m with
      | call c => cases c <;> simp [CapnpConn.receive, chunksOf]
      | returned => simp [CapnpConn.receive, chunksOf]
  | lost j hconn => simp [chunksOf]
  | _ => exact List.prefix_rfl

theorem ConnMove.answered {y : CapnpSetup} {v v' : CapnpConn} (h : ConnMove y v v')
    (hret : v'.Answered) : v.Answered := by
  cases h with
  | start hconn hpc =>
      rcases hret with hfin | hunder
      · cases hfin
      · exact .inr hunder
  | send hconn hpc =>
      rcases hret with hfin | hunder
      · exact (sendStream_ne_finished _ _ (Option.some.inj hfin)).elim
      · exact .inr hunder
  | ack hconn hpc hflow =>
      rcases hret with hfin | hunder
      · cases hfin
      · exact .inr hunder
  | @receive m ms hconn hqueue =>
      rw [CapnpConn.Answered, hqueue]
      cases m with
      | call c =>
          rcases hret with hfin | ⟨-, hmem⟩
          · refine .inl ?_
            rw [← hfin]
            cases c <;> rfl
          · refine .inr ⟨hconn, List.mem_cons_of_mem _ ?_⟩
            cases c <;> exact hmem
      | returned => exact .inr ⟨hconn, List.mem_cons_self⟩
  | lost j hconn =>
      rcases hret with hfin | ⟨hbroken, -⟩
      · exact .inl hfin
      · cases hbroken

theorem ConnMove.leftover {y : CapnpSetup} {v v' : CapnpConn} (h : ConnMove y v v') :
    Leftover v v' :=
  ⟨h.reqSvc.1, h.reqSvc.2, h.arrived, h.answered⟩

/-- The server does not move any more, and what is left of the connections is as above. -/
theorem leftover_of_run {ls : List ι} (hdown : s.down = true) (hrun : Run (LossyStep x) s ls s') :
    (s'.down = true ∧ s'.heap = s.heap ∧ s'.next = s.next) ∧
      ∀ i, Leftover (s.conn i) (s'.conn i) := by
  refine hrun.invariant (P := fun u => (u.down = true ∧ u.heap = s.heap ∧ u.next = s.next) ∧
    ∀ i, Leftover (s.conn i) (u.conn i)) ⟨⟨hdown, rfl, rfl⟩, fun _ => .refl _⟩ ?_
  rintro j a b ⟨⟨ha, hheap, hnext⟩, hleft⟩ hstep
  obtain ⟨v, hmove, rfl⟩ := connMove_of_down ha hstep
  refine ⟨⟨ha, hheap, hnext⟩, fun i => ?_⟩
  rcases eq_or_ne i j with rfl | hne
  · rw [CapnpState.set_conn_self]
    exact (hleft i).trans hmove.leftover
  · rw [CapnpState.set_conn_of_ne a v hne]
    exact hleft i

/-- A stream carries calls only. -/
theorem Streaming.returned_not_mem {m : Msg} {pc : ChunkPc} {connected : Bool} :
    ∀ {queue : List ToClient} {delivered : Msg},
      Streaming .call m delivered pc queue connected → .returned ∉ queue := by
  intro queue
  induction queue with
  | nil => exact fun _ => List.not_mem_nil
  | cons msg ms ih =>
      intro delivered h hmem
      rcases h.pop with ⟨buf, rfl, -, hrest⟩ | ⟨rfl, rfl, -⟩
      · exact ih hrest ((List.mem_cons.mp hmem).resolve_left ToClient.noConfusion)
      · exact List.not_mem_nil ((List.mem_cons.mp hmem).resolve_left ToClient.noConfusion)

/-- The return of `done` comes last. -/
theorem ConnInv.toClient_of_mem {y : CapnpSetup} {rsp : Msg} {v : CapnpConn}
    {o : Option ReqSvcImpl} (h : ConnInv y rsp v o) (hmem : .returned ∈ v.toClient) :
    v.toClient = [.returned] := by
  have hempty : v.toClient ≠ [] := List.ne_nil_of_mem hmem
  cases h with
  | idle hquiet => exact (hempty hquiet.toClient).elim
  | opening hquiet => exact (hempty hquiet.toClient).elim
  | calling hquiet => exact (hempty hquiet.toClient).elim
  | replying _ _ _ _ hstreaming => exact (hstreaming.returned_not_mem hmem).elim
  | replied _ _ _ _ _ htoClient => exact (hempty htoClient).elim
  | returning _ _ _ _ htoClient => exact htoClient.resolve_right fun h => hempty h.2
  | returned _ _ _ _ htoClient => exact (hempty htoClient).elim

theorem toClient_of_run {ls : List ι} (hrun : Run (LossyStep x) {} ls s)
    (hmem : .returned ∈ (s.conn i).toClient) : (s.conn i).toClient = [.returned] := by
  obtain ⟨t, h⟩ := Reached.of_run hrun
  cases h.before with
  | up hup => exact (h.conn i).1.toClient_of_mem hmem
  | @down _ j n hcap hat hrefused hs =>
      subst hs
      rcases eq_or_ne i j with rfl | hne
      · have hnil : ((t.aborted i n).conn i).toClient = [] := by
          rw [← hat.toClient, CapnpState.aborted, CapnpState.set_conn_self]
        rw [hnil] at hmem
        cases hmem
      · have hconn : (t.aborted j n).conn i = t.conn i := CapnpState.set_conn_of_ne t _ hne
        rw [hconn] at hmem ⊢
        exact (h.conn i).1.toClient_of_mem hmem

/-- What becomes of session `i` between a state `s` with the server down and a later state `s'`. -/
structure AfterDown (x : ι → CapnpSetup) (i : ι) (s s' : CapnpState ι) : Prop where
  server : s'.down = true ∧ s'.heap = s.heap ∧ s'.next = s.next ∧
    (s'.conn i).task = (s.conn i).task
  calls : s'.calls i = s.calls i
  arrived : (s'.conn i).reply <+: (s.conn i).reply ++ chunksOf (s.conn i).toClient
  /-- a return that is there or on its way by `s'` was so by `s` -/
  answered : (s'.conn i).Answered → (s.conn i).Answered
  /-- and without one `sendReq` never returns -/
  returns_iff : (∃ ls u, Run (LossyStep x) s' ls u ∧ (u.conn i).stream = some .finished) ↔
    (s'.conn i).Answered
  returned : (s'.conn i).stream = some .finished →
    (x i).rcvFn (x i).request [] = .ok (s'.conn i).reply

/-- **One refused request ends all sessions.**  Once the server is down, in every run on from there
and for every session: the server's objects and streams stay as they are, and the receive function
is not called any more; the client gets no more than what was under way; and its `sendReq` can still
return exactly when `done` had returned on the server, and then with the whole answer. -/
theorem capnp_abort_ends {ls : List ι} (hrun : Run (LossyStep x) {} ls s) (hdown : s.down = true)
    {ls' : List ι} (hlater : Run (LossyStep x) s ls' s') (i : ι) : AfterDown x i s s' := by
  obtain ⟨⟨hdown', hheap, hnext⟩, hleft⟩ := leftover_of_run hdown hlater
  have hall := hrun.append hlater
  refine ⟨⟨hdown', hheap, hnext, (hleft i).task⟩, ?_, ?_, (hleft i).answered, ⟨?_, ?_⟩,
    fun hfin => ((sessionOk_of_run hall i).returned hfin).1⟩
  · have hobj : (s'.view i).2 = (s.view i).2 := by
      simp only [CapnpState.view, (hleft i).reqSvc, hheap]
    exact congrArg (fun o => o.elim [] ReqSvcImpl.calls) hobj
  · exact (List.prefix_append _ _).trans (hleft i).arrived
  · rintro ⟨newer, u, hnew, hfin⟩
    exact ((leftover_of_run hdown' hnew).2 i).answered (.inl hfin)
  · rintro (hfin | ⟨hconn, hmem⟩)
    · exact ⟨[], s', .refl, hfin⟩
    · have hmove : ConnMove (x i) (s'.conn i) _ :=
        .receive hconn (toClient_of_run hall hmem)
      refine ⟨_, _, Run.refl.tail hmove.lossyStep, ?_⟩
      rw [CapnpState.set_conn_self]
      rfl

/-! ### A request that is refused -/

/-- A session without buffers, which is answered, and one with a buffer, which is refused. -/
def refusedSession (b : Bool) : CapnpSetup where
  request := if b then [[9]] else []
  rcvFn := fun rcvMsg _ =>
    match rcvMsg with
    | [] => .ok [[5]]
    | _ => .error (.exception "unexpected request")
  flow := 1

/-- The server goes down between the return of `done` and its arrival at the other client. -/
theorem refusedSession_down : ∃ ls s, Run (LossyStep refusedSession) {} ls s ∧ s.down = true ∧
    (s.conn false).connected = true ∧ (s.conn false).stream = some .doneSent ∧
    (s.conn false).toClient = [.returned] := by
  have hasked : Run (LossyStep refusedSession) {} _ _ :=
    (((Run.refl.tail (.inl (.start (i := false) rfl rfl))).tail
      (.inl (.send (i := false) rfl rfl))).tail (.inl (.reqReply (i := false) rfl rfl))).tail
      (.inl (.done (i := false) rfl rfl rfl rfl))
  have hchunk := ((hasked.tail (.inl (.reply (i := false) rfl rfl rfl rfl))).tail
    (.inl (.receive (i := false) rfl rfl))).tail
    (.inl (.ackReply (i := false) rfl rfl rfl (Nat.zero_le 1)))
  have hreturned := ((hchunk.tail (.inl (.reply (i := false) rfl rfl rfl rfl))).tail
    (.inl (.receive (i := false) rfl rfl))).tail (.inl (.replyReturned (i := false) rfl rfl))
  have hsent := (((hreturned.tail (.inl (.start (i := true) rfl rfl))).tail
    (.inl (.reqReply (i := true) rfl rfl))).tail (.inl (.send (i := true) rfl rfl))).tail
    (.inl (.sendChunk (i := true) rfl rfl rfl))
  have hend := ((hsent.tail (.inl (.ack (i := true) rfl rfl (Nat.zero_le 1)))).tail
    (.inl (.send (i := true) rfl rfl))).tail (.inl (.abort (i := true) rfl rfl rfl rfl))
  exact ⟨_, _, hend, rfl, rfl, rfl, rfl⟩

theorem capnp_served_or_down_refused : ∃ ls s, Run (LossyStep refusedSession) {} ls s ∧
    s.down = true ∧ SessionOk (refusedSession false) (s.view false) ∧
    ∃! i, s.calls i = [(refusedSession i).request] ∧ (refusedSession i).Refused := by
  obtain ⟨ls, s, hrun, hdown, -⟩ := refusedSession_down
  obtain ⟨hok, hdown_iff⟩ := capnp_served_or_down hrun
  exact ⟨ls, s, hrun, hdown, hok false, hdown_iff.mp hdown⟩

theorem capnp_session_ends_refused : ∃ ls s, Run (LossyStep refusedSession) {} ls s ∧
    ls.count true ≤ 3 * (1 + 0) + 10 ∧ ls.count false ≤ 3 * (0 + 1) + 10 := by
  obtain ⟨ls, s, hrun, -⟩ := refusedSession_down
  exact ⟨ls, s, hrun, (capnp_session_ends hrun true).1, (capnp_session_ends hrun false).1⟩

theorem capnp_abort_ends_refused : ∃ ls s s', Run (LossyStep refusedSession) {} ls s ∧
    s.down = true ∧ (s.conn false).stream ≠ some .finished ∧
    (s'.conn false).stream = some .finished ∧ AfterDown refusedSession false s s' ∧
    AfterDown refusedSession true s s' := by
  obtain ⟨ls, s, hrun, hdown, hconn, hstream, hqueue⟩ := refusedSession_down
  have hlater : Run (LossyStep refusedSession) s _ _ :=
    Run.refl.tail (.inl (.receive (i := false) hconn hqueue))
  have hfin : ((s.set false ({ s.conn false with toClient := [] }.receive .returned)).conn
      false).stream = some .finished := by
    rw [CapnpState.set_conn_self]
    rfl
  refine ⟨ls, s, _, hrun, hdown, ?_, hfin, capnp_abort_ends hrun hdown hlater false,
    capnp_abort_ends hrun hdown hlater true⟩
  rw [hstream]
  simp

end RpcTransport

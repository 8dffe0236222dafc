import RpcTransport.Benchmark
import RpcTransport.ServerAbort

/-!
# What returns over a network

A call over a network that refuses messages and loses connections may end early, but what returns is
whole: a receiver that does not take a buffer in never comes past it.

* `network_returned` — over gRPC and FlatBuffers, a `sendReq` that returns has the whole answer to
  its whole request, all of it within the limit;
* `capnp_network_returned` — and over Cap'n Proto;
* `benchmark_refused`, `benchmark_capnp_refused` — so a benchmark with blocks over the limit does
  not pass.
-/

namespace RpcTransport

open Transition
open Fifo (Passing)

variable {ι : Type} [DecidableEq ι] {net : Network ι}

/-- The first message of a queue is taken out only within the limit. -/
theorem MessageLimit.Respects.takes {μ : Type} {lim : MessageLimit} {bytes : μ → ℕ} {m : μ}
    {ms : List μ} (h : lim.Respects bytes (m :: ms) ms) : lim.Takes (bytes m) := by
  by_contra hover
  have hlen := (h ⟨m, rfl, hover⟩).length_le
  rw [List.length_cons] at hlen
  omega

/-! ### gRPC and FlatBuffers -/

section Stream

variable {x : ι → CallSetup} {s s' : ι → Session} {i j : ι}

/-- A move of call `j` leaves the others alone. -/
theorem NetworkStep.frame (hstep : NetworkStep net x j s s') (hne : i ≠ j) : s' i = s i := by
  cases hstep with
  | within h _ _ =>
      cases h with
      | client _ => exact Function.update_of_ne hne _ _
      | handler _ _ => exact Function.update_of_ne hne _ _
      | lost _ _ _ => exact Function.update_of_ne hne _ _
  | refusedRequest _ _ _ _ _ => exact Function.update_of_ne hne _ _
  | refusedReply _ _ _ _ => exact Function.update_of_ne hne _ _
  | broken _ _ _ _ _ _ => exact Function.update_of_ne hne _ _

/-- A status that refuses a message is an error, and so `CallSound` holds over any network. -/
theorem CallSound.network_step (h : CallSound (s i)) (hstep : NetworkStep net x i s s') :
    CallSound (s' i) := by
  cases hstep with
  | within hmove _ _ =>
      cases hmove with
      | client hc =>
          rw [Function.update_self]
          exact h.client_step hc
      | handler _ hk =>
          rw [Function.update_self]
          exact h.handler_step hk
      | lost status _ hcode =>
          rw [Function.update_self]
          exact h.lost hcode
  | refusedRequest status hcode _ _ _ =>
      rw [Function.update_self]
      have hlost : CallSound { s i with stream := (s i).stream.fail status } :=
        h.lost (by rw [hcode]; decide)
      exact ⟨hlost.broken, hlost.returned, hlost.threw⟩
  | refusedReply status hcode hpc _ =>
      rw [Function.update_self]
      have hlost : CallSound { s i with stream := (s i).stream.fail status } :=
        h.lost (by rw [hcode]; decide)
      refine ⟨hlost.broken, fun hreturned => ?_, hlost.threw⟩
      cases hpc.symm.trans hreturned
  | broken _ _ status hcode hpc _ =>
      rw [Function.update_self]
      have hlost := h.lost hcode
      exact ⟨hlost.broken, fun hreturned => absurd hreturned hpc, hlost.threw⟩

/-- What is known of a call over a network whose server answers `rsp`: as long as it was not cut
off it is as without a network; what the two sides have got is within the limit; and with the
server's status all of the answer is on its way. -/
structure Intact (y : CallSetup) (rsp : Msg) (lim : MessageLimit) (s : Session) : Prop where
  inv : s.stream.broken = none → SessionInv y rsp s
  heard : ∀ buf ∈ s.handler.rcvMsg, lim.Takes buf.length
  got : ∀ buf ∈ s.client.reply, lim.Takes buf.length
  status : s.stream.status.isSome = true → s.handler.pc = .returned ∧
    s.handler.rcvMsg = y.request ∧ s.handler.calls = [y.request] ∧
    Passing y.transport.pack rsp s.client.reply s.stream.toClient []
  atEnd : s.client.pc.atEnd = true → s.stream.status.isSome = true → s.stream.toClient = []

theorem WireMsg.bytes_of_takeData {m : WireMsg} {buf : DataBuf} (h : m.takeData = .ok buf) :
    m.bytes = buf.length := by
  obtain ⟨_ | data⟩ := m
  · cases h
  · cases h
    rfl

/-- Without a cut the server's status says that the call was served. -/
theorem SessionInv.served {y : CallSetup} {rsp : Msg} {t : Session} (h : SessionInv y rsp t)
    (hstatus : t.stream.status.isSome = true) : t.handler.pc = .returned ∧
      t.handler.rcvMsg = y.request ∧ t.handler.calls = [y.request] ∧
      Passing y.transport.pack rsp t.client.reply t.stream.toClient [] := by
  have hreturned : t.handler.pc = .returned := by
    by_contra hnot
    rw [h.status, if_neg hnot] at hstatus
    cases hstatus
  have hcalls := h.calls
  have hreply := h.reply
  rw [hreturned] at hcalls hreply
  exact ⟨hreturned, h.heard (by rw [hreturned]; rfl), hcalls, hreply⟩

namespace Intact

variable {y : CallSetup} {rsp : Msg} {lim : MessageLimit} {t : Session}

theorem init (y : CallSetup) (rsp : Msg) (lim : MessageLimit) : Intact y rsp lim {} where
  inv := fun _ => SessionInv.init y rsp
  heard := by intro buf h; cases h
  got := by intro buf h; cases h
  status := by intro h; cases h
  atEnd := by intro h; cases h

/-- **A step of the client** that takes nothing over the limit out. -/
theorem client_step (h : Intact y rsp lim t) (hcarry : ∀ buf ∈ rsp, y.transport.Carries buf)
    {c : SendReq} {st : Stream} (hstep : sendReqStep y t.client t.stream = some (c, st))
    (hrespects : lim.Respects WireMsg.bytes t.stream.toClient st.toClient) :
    Intact y rsp lim { t with client := c, stream := st } := by
  have hinv : t.stream.broken = none → SessionInv y rsp { t with client := c, stream := st } :=
    fun hnone => ((h.inv hnone).client_step hcarry hstep).inv
  have hatEnd := h.atEnd
  cases sendReqStep_cases hstep with
  | @read m ms buf hpc hqueue htake =>
      rw [hqueue] at hrespects
      refine ⟨hinv, h.heard, fun b hb => ?_, fun hstatus => ?_, fun hend => ?_⟩
      · rcases List.mem_append.mp hb with hb | hb
        · exact h.got b hb
        · rw [List.mem_singleton.mp hb, ← WireMsg.bytes_of_takeData htake]
          exact hrespects.takes
      · obtain ⟨hreturned, hwhole, hcalls, hpassing⟩ := h.status hstatus
        rw [hqueue] at hpassing
        obtain ⟨b, hb, rfl, hpassing'⟩ := hpassing.pop
        obtain rfl := Except.ok.inj ((hcarry b hb).symm.trans htake)
        exact ⟨hreturned, hwhole, hcalls, hpassing'⟩
      · exact absurd (hpc ▸ hend) Bool.noConfusion
  | readNull hpc hqueue htake =>
      refine ⟨hinv, h.heard, h.got, fun hstatus => ?_, fun hend => by cases hend⟩
      -- the queue has the answer, which the transport carries
      obtain ⟨-, -, -, hpassing⟩ := h.status hstatus
      obtain ⟨b, hb, rfl⟩ := hpassing.mem_queue (by rw [hqueue]; exact List.mem_cons_self)
      exact nomatch (hcarry b hb).symm.trans htake
  | readEnd hpc hempty _ => exact ⟨hinv, h.heard, h.got, h.status, fun _ _ => hempty⟩
  | finish hpc _ _ =>
      rw [hpc] at hatEnd
      exact ⟨hinv, h.heard, h.got, h.status, fun _ => hatEnd rfl⟩
  | _ => exact ⟨hinv, h.heard, h.got, h.status, fun hend => by cases hend⟩

/-- **A step of the handler**, likewise. -/
theorem handler_step (h : Intact y rsp lim t) (hy : y.Answers rsp) {k : ReqReply} {st : Stream}
    (hstep : reqReplyStep y t.handler t.stream = some (k, st))
    (hrespects : lim.Respects WireMsg.bytes t.stream.toServer st.toServer) :
    Intact y rsp lim { t with handler := k, stream := st } := by
  have hinv : t.stream.broken = none → SessionInv y rsp { t with handler := k, stream := st } :=
    fun hnone => ((h.inv hnone).handler_step hy.carries_request hy.returns hstep).inv
  -- with the server's status in, the handler does not move any more
  have hbefore : t.stream.status.isSome = false := by
    by_contra hsome
    obtain ⟨hreturned, -⟩ := h.status ((Bool.not_eq_false _).mp hsome)
    simp [reqReplyStep, hreturned] at hstep
  have hno : ¬ t.stream.status.isSome = true := by
    rw [hbefore]
    exact Bool.noConfusion
  cases reqReplyStep_cases hstep with
  | @read m ms buf hpc hqueue htake =>
      rw [hqueue] at hrespects
      refine ⟨hinv, fun b hb => ?_, h.got, fun hstatus => absurd hstatus hno,
        fun _ hstatus => absurd hstatus hno⟩
      rcases List.mem_append.mp hb with hb | hb
      · exact h.heard b hb
      · rw [List.mem_singleton.mp hb, ← WireMsg.bytes_of_takeData htake]
        exact hrespects.takes
  | returnOk hpc hopen =>
      have hnone : t.stream.broken = none := by simpa using hopen
      refine ⟨hinv, h.heard, h.got, (hinv hnone).served, fun hend hstatus => ?_⟩
      -- a client that has read to the end has the whole answer
      have hreply := ((hinv hnone).atEnd hend).2
      obtain ⟨-, -, -, hpassing⟩ := (hinv hnone).served hstatus
      have hlen := hpassing.length_eq
      rw [hreply, List.length_nil] at hlen
      exact List.length_eq_zero_iff.mp (by omega)
  | _ =>
      exact ⟨hinv, h.heard, h.got, fun hstatus => absurd hstatus hno,
        fun _ hstatus => absurd hstatus hno⟩

/-- A call that is cut off, with the server's status or without it. -/
theorem cut (h : Intact y rsp lim t) {st : Stream} (hbroken : st.broken ≠ none)
    (hsame : st.status.isSome = true → st.status = t.stream.status ∧
      st.toClient = t.stream.toClient) : Intact y rsp lim { t with stream := st } where
  inv := fun hnone => absurd hnone hbroken
  heard := h.heard
  got := h.got
  status := fun hstatus => by
    obtain ⟨hs, hqueue⟩ := hsame hstatus
    show _ ∧ _ ∧ _ ∧ Passing _ _ _ st.toClient []
    rw [hqueue]
    exact h.status (hs ▸ hstatus)
  atEnd := fun hend hstatus => by
    obtain ⟨hs, hqueue⟩ := hsame hstatus
    exact hqueue.trans (h.atEnd hend (hs ▸ hstatus))

/-- **One move** over a network. -/
theorem step (h : Intact (x i) rsp net.limit (s i)) (hx : (x i).Answers rsp)
    (hstep : NetworkStep net x i s s') : Intact (x i) rsp net.limit (s' i) := by
  have hbroken : ∀ (st : Stream) (status : Status), (st.fail status).broken ≠ none := by
    intro st status
    rw [Stream.fail]
    cases st.broken <;> simp
  cases hstep with
  | within hmove htoServer htoClient =>
      cases hmove with
      | client hc =>
          rw [Function.update_self] at htoClient ⊢
          exact h.client_step hx.carries_rsp hc htoClient
      | handler _ hk =>
          rw [Function.update_self] at htoServer ⊢
          exact h.handler_step hx hk htoServer
      | lost status _ _ =>
          rw [Function.update_self]
          exact h.cut (hbroken _ _) fun _ => ⟨rfl, rfl⟩
  | refusedRequest status _ _ _ _ =>
      rw [Function.update_self]
      exact h.cut (hbroken _ _) fun _ => ⟨rfl, rfl⟩
  | refusedReply status _ _ _ =>
      rw [Function.update_self]
      exact h.cut (hbroken _ _) fun hstatus => by cases hstatus
  | broken j k status _ _ _ =>
      rw [Function.update_self]
      refine h.cut (hbroken _ _) fun hstatus => ?_
      show (if k ≤ (s i).stream.toClient.length then none else (s i).stream.status) = _ ∧ _
      have hstatus : (if k ≤ (s i).stream.toClient.length then none
        else (s i).stream.status).isSome = true := hstatus
      by_cases hk : k ≤ (s i).stream.toClient.length
      · rw [if_pos hk] at hstatus
        cases hstatus
      · rw [if_neg hk]
        exact ⟨rfl, List.take_of_length_le (by omega)⟩

end Intact

/-- **What returns is whole.**  In every run of any number of calls over any network, of a call
whose server answers `rsp`: when `sendReq` has returned, the receive function was called once, with
the whole request, the reply is the whole answer, and every buffer of both is within the limit; and
where `sendReq` throws, it is with an error status. -/
theorem network_returned {rsp : Msg} (hx : (x i).Answers rsp) {ls : List ι}
    (hrun : Run (NetworkStep net x) (fun _ => {}) ls s) :
    ((s i).client.pc = .returned → (s i).handler.calls = [(x i).request] ∧
      (s i).client.reply = rsp ∧ (∀ buf ∈ (x i).request, net.limit.Takes buf.length) ∧
      ∀ buf ∈ rsp, net.limit.Takes buf.length) ∧
    ∀ what, (s i).client.pc = .threw what →
      ∃ status : Status, status.code ≠ 0 ∧ what = sendFailed status := by
  obtain ⟨hintact, hsound⟩ := hrun.invariant
    (P := fun s => Intact (x i) rsp net.limit (s i) ∧ CallSound (s i))
    ⟨Intact.init _ _ _, CallSound.init⟩
    (by
      rintro j a b ⟨ha, hsound⟩ hstep
      rcases eq_or_ne i j with rfl | hne
      · exact ⟨ha.step hx hstep, hsound.network_step hstep⟩
      · rw [hstep.frame hne]
        exact ⟨ha, hsound⟩)
  refine ⟨fun hreturned => ?_, hsound.threw⟩
  have hstatus := hsound.returned hreturned
  obtain ⟨-, hwhole, hcalls, hpassing⟩ := hintact.status hstatus
  rw [hintact.atEnd (by rw [hreturned]; rfl) hstatus] at hpassing
  obtain rfl : rsp = (s i).client.reply := by
    rw [hpassing.whole_eq, List.append_nil]
  exact ⟨hcalls, rfl, fun buf hbuf => hintact.heard buf (hwhole ▸ hbuf), hintact.got⟩

end Stream

/-! ### Cap'n Proto -/

section Capnp

variable {x : ι → CapnpSetup} {rsp : ι → Msg} {s s' : CapnpState ι} {i : ι}

/-- The connection is in one of its phases, and what its two sides have got is within the limit. -/
structure ConnWithin (lim : MessageLimit) (y : CapnpSetup) (answer : Msg) (p : ConnView) :
    Prop where
  inv : ConnInv y answer p.1 p.2
  heard : ∀ o, p.2 = some o → ∀ chunk ∈ o.rcvMsg, lim.Takes chunk.length
  got : ∀ chunk ∈ p.1.reply, lim.Takes chunk.length

/-- A session that has returned has got the whole of both. -/
theorem ConnInv.whole {y : CapnpSetup} {answer : Msg} {p : ConnView} (h : ConnInv y answer p.1 p.2)
    (hfin : p.1.stream = some .finished) :
    p.1.reply = answer ∧ ∃ o, p.2 = some o ∧ o.rcvMsg = y.request := by
  obtain ⟨v, o⟩ := p
  have h : ConnInv y answer v o := h
  have hfin : v.stream = some .finished := hfin
  cases h with
  | idle _ _ _ hunderway => exact (hunderway _ hfin).elim
  | opening _ _ hstream hstreaming =>
      cases hstream.symm.trans hfin
      exact hstreaming.underway.elim
  | calling _ _ _ hstream hstreaming =>
      cases hstream.symm.trans hfin
      exact hstreaming.underway.elim
  | replying hstream _ _ _ _ => cases hstream.symm.trans hfin
  | replied hstream _ _ _ _ _ => cases hstream.symm.trans hfin
  | returning hstream _ _ _ _ => cases hstream.symm.trans hfin
  | returned _ _ _ hreply _ => exact ⟨hreply, _, rfl, rfl⟩

/-- A move that takes no chunk over the limit out of a queue. -/
theorem ConnStep.within {y : CapnpSetup} {lim : MessageLimit} {p p' : ConnView}
    (hstep : ConnStep y p p') (htoServer : lim.Respects ToServer.bytes p.1.toServer p'.1.toServer)
    (htoClient : lim.Respects ToClient.bytes p.1.toClient p'.1.toClient)
    (hheard : ∀ o, p.2 = some o → ∀ chunk ∈ o.rcvMsg, lim.Takes chunk.length)
    (hgot : ∀ chunk ∈ p.1.reply, lim.Takes chunk.length) :
    (∀ o, p'.2 = some o → ∀ chunk ∈ o.rcvMsg, lim.Takes chunk.length) ∧
      ∀ chunk ∈ p'.1.reply, lim.Takes chunk.length := by
  cases hstep with
  | reqReply n _ => exact ⟨by rintro o ⟨⟩ chunk ⟨⟩, hgot⟩
  | @sendChunk v o chunk ms hqueue =>
      refine ⟨?_, hgot⟩
      rintro o' ⟨⟩ b hmem
      rcases List.mem_append.mp hmem with hmem | hmem
      · exact hheard o rfl b hmem
      · rw [List.mem_singleton.mp hmem]
        have htaken : lim.Respects ToServer.bytes v.toServer ms := htoServer
        rw [hqueue] at htaken
        exact htaken.takes
  | @done v o o' ms _ hdone =>
      refine ⟨?_, hgot⟩
      rintro o'' ⟨⟩
      have hsame : o'.rcvMsg = o.rcvMsg := by
        unfold ReqSvcImpl.done at hdone
        split at hdone <;> cases hdone
        rfl
      rw [hsame]
      exact hheard o rfl
  | @receive v o m ms _ hqueue =>
      refine ⟨hheard, ?_⟩
      rcases m with (chunk | _) | _
      · intro b hmem
        rcases List.mem_append.mp hmem with hmem | hmem
        · exact hgot b hmem
        · rw [List.mem_singleton.mp hmem]
          have htaken : lim.Respects ToClient.bytes v.toClient ms := htoClient
          rw [hqueue] at htaken
          exact htaken.takes
      · exact hgot
      · exact hgot
  | start _ _ => exact ⟨hheard, hgot⟩
  | send _ _ => exact ⟨hheard, hgot⟩
  | ack _ _ _ => exact ⟨hheard, hgot⟩
  | reply _ _ => exact ⟨hheard, hgot⟩
  | ackReply _ _ _ => exact ⟨hheard, hgot⟩
  | replyReturned _ => exact ⟨hheard, hgot⟩

/-- A connection that breaks has got what it had got before. -/
theorem ConnBreak.same {p p' : ConnView} (h : ConnBreak p p') :
    p'.2 = p.2 ∧ p'.1.reply = p.1.reply := by
  cases h with
  | mk _ _ => exact ⟨rfl, rfl⟩

/-- Over a network a connection stays in its phases, and both its sides within the limit. -/
theorem capnpNetworkStep_local (hrcv : ∀ i, (x i).rcvFn (x i).request [] = .ok (rsp i)) :
    Local HeapOk (fun i s => s.view i) (fun i => ConnWithin net.limit (x i) (rsp i))
      (fun i _ p' => ConnWithin net.limit (x i) (rsp i) p') (CapnpNetworkStep net x) := by
  intro i s s' hok hs hstep
  have hbreak : Disconnect i s s' → HeapOk s' ∧
      ConnWithin net.limit (x i) (rsp i) (s'.view i) ∧ ∀ j, j ≠ i → s'.view j = s.view j := by
    intro h
    obtain ⟨hok', hown, hrest⟩ := disconnect_conn hok h
    obtain ⟨hobject, hreply⟩ := hown.same
    exact ⟨hok', ⟨((hs i).inv.lose hown).1, hobject ▸ (hs i).heard, hreply ▸ (hs i).got⟩, hrest⟩
  cases hstep with
  | within h htoServer htoClient =>
      obtain ⟨hok', hown, hrest⟩ := capnpStep_conn hok ((hs i).inv.settled (hrcv i)) h
      obtain ⟨hheard, hgot⟩ := hown.within htoServer htoClient (hs i).heard (hs i).got
      exact ⟨hok', ⟨((hs i).inv.step (hrcv i) hown).inv, hheard, hgot⟩, hrest⟩
  | refused h _ => exact hbreak h
  | broken h _ => exact hbreak h

/-- **And over Cap'n Proto**, where the receive function returns for all sessions: when `sendReq`
has returned, the reply is the whole answer, and every buffer of request and answer is within the
limit. -/
theorem capnp_network_returned (hrcv : ∀ i, (x i).rcvFn (x i).request [] = .ok (rsp i))
    {ls : List ι} (hrun : Run (CapnpNetworkStep net x) {} ls s)
    (hfin : (s.conn i).stream = some .finished) :
    (s.conn i).reply = rsp i ∧ (∀ buf ∈ (x i).request, net.limit.Takes buf.length) ∧
      ∀ buf ∈ rsp i, net.limit.Takes buf.length := by
  obtain ⟨-, hall⟩ := hrun.invariant
    (P := fun s => HeapOk s ∧ ∀ i, ConnWithin net.limit (x i) (rsp i) (s.view i))
    ⟨HeapOk.init, fun i => ⟨ConnInv.init (x i) (rsp i), by rintro o ⟨⟩, by rintro chunk ⟨⟩⟩⟩
    ((capnpNetworkStep_local hrcv).invariant fun _ _ _ _ h => h)
  obtain ⟨hreply, o, ho, hwhole⟩ := (hall i).inv.whole hfin
  have hreply : (s.conn i).reply = rsp i := hreply
  exact ⟨hreply, fun buf hbuf => (hall i).heard o ho buf (hwhole ▸ hbuf),
    fun buf hbuf => (hall i).got buf (hreply ▸ hbuf)⟩

end Capnp

/-! ### Benchmarks -/

section Benchmark

open RemoteProgram

variable {pb : Protobuf} {D : Type} [IntCast D] [Sub D] [Div D]

/-- In the first call, or ended by an exception. -/
def MainPc.AtFirst (pc : MainPc D) : Prop :=
  (∃ n st, pc = .sendReq 0 n st) ∨ ∃ st e, pc = .exited (.ofLoop (st, .error e))

omit [IntCast D] [Sub D] [Div D] in
theorem clientStart_atFirst {b : Bench} (hops : 0 < b.flags.opCount.toInt) :
    (clientStart pb 0 b.flags b.ops : MainPc D).AtFirst := by
  obtain ⟨n, hn⟩ : ∃ n, b.flags.opCount.toInt.toNat = n + 1 :=
    Nat.exists_eq_succ_of_ne_zero (by omega)
  rw [clientStart, hn, mainLoop]
  split
  · exact .inl ⟨n, _, rfl⟩
  · exact .inr ⟨_, _, rfl⟩

/-- An exception of the first call ends `main`. -/
theorem mainResume_error (ovf : ℤ → ℤ) (b : Bench) {k n : ℕ} (st : ClientState D) (e : Fault) :
    (mainResume pb 0 ovf b.flags b.ops (.sendReq k n st) (.error e)).AtFirst := by
  have hnot : ¬ OpAccepted pb b.flags ((b.ops k).env fun _ => .error e) := by
    rintro ⟨req, reply, us, h⟩
    cases h.send
  obtain ⟨st', e', hfailed, -⟩ := clientOp_failed ovf hnot st
  rw [mainResume, hfailed]
  exact .inr ⟨st', e', rfl⟩

/-- A client of at least one operation whose first call is never answered with a reply does not
pass. -/
theorem unanswered_fails {σ : Type} {call : ι × ℕ → σ → σ → Prop}
    {answer : ι × ℕ → σ → Option (Except Fault Msg)} {init : σ} (ovf : ℤ → ℤ) (b : ι → Bench)
    {i : ι} (hops : 0 < (b i).flags.opCount.toInt)
    (hnever : ∀ ls t, Run call init ls t → ∀ reply, answer (i, 0) t ≠ some (.ok reply))
    {ls : List ι} {s : State ι (MainPc D) σ}
    (hrun : Run (Step (fun i => clientProgram pb 0 ovf (b i).flags (b i).ops) call answer)
      ⟨init, fun i => clientStart pb 0 (b i).flags (b i).ops⟩ ls s)
    {run : ClientRun D} (hend : s.pos i = .exited run) :
    run.stdout = [] ∧ ∃ e, run.result = .error e := by
  obtain ⟨-, hfirst⟩ := hrun.invariant
    (P := fun s => (∃ netLs, Run call init netLs s.net) ∧ (s.pos i).AtFirst)
    ⟨⟨[], .refl⟩, clientStart_atFirst hops⟩
    (by
      rintro j a c ⟨⟨netLs, hnet⟩, hfirst⟩ hstep
      cases hstep with
      | move _ hmove => exact ⟨⟨_, hnet.tail hmove⟩, hfirst⟩
      | @resume k reply hk hreply =>
          refine ⟨⟨netLs, hnet⟩, ?_⟩
          rcases eq_or_ne i j with rfl | hne
          · simp only [Function.update_self]
            rcases hfirst with ⟨n, st, hpc⟩ | ⟨st, e, hpc⟩
            · rw [hpc] at hk ⊢
              cases hk
              cases reply with
              | ok reply => exact absurd hreply (hnever netLs _ hnet reply)
              | error e => exact mainResume_error ovf (b i) st e
            · rw [hpc] at hk
              cases hk
          · simp only [Function.update_of_ne hne]
            exact hfirst)
  rcases hfirst with ⟨n, st, hpc⟩ | ⟨st, e, hpc⟩
  · cases hpc.symm.trans hend
  · cases hpc.symm.trans hend
    exact ⟨rfl, e, rfl⟩

/-- The flags of a client that moves blocks over the limit. -/
structure ClientFlags.Oversized (lim : MessageLimit) (flags : ClientFlags) : Prop where
  ops : 0 < flags.opCount.toInt
  count : 0 < flags.blockCount.toInt
  block : ¬ lim.Takes (dataPayloadSize flags.blockSize.toInt.toNat)

/-- One block of 8 MiB over gRPC. -/
example : ClientFlags.Oversized .grpc ⟨.write, 8388608, 1, 1⟩ :=
  ⟨by decide, by decide, by decide⟩

/-- Its requests have such a block, or the responses to them. -/
theorem ClientFlags.Oversized.refused (hpb : pb.Lawful) {lim : MessageLimit} {b : Bench}
    (h : b.flags.Oversized lim) (hserv : b.flags.Servable) (k : ℕ) :
    ¬ ((∀ buf ∈ b.request pb k, lim.Takes buf.length) ∧
      ∀ buf ∈ b.rsp pb k, lim.Takes buf.length) := by
  -- there is a first block, whoever draws it
  have hblock : ∀ (rnd : Random) (first : ℕ), ∃ buf ∈ blockBufs pb rnd first
      b.flags.blockCount.toInt.toNat b.flags.blockSize.toInt.toNat, ¬ lim.Takes buf.length := by
    intro rnd first
    have hpos : 0 < (blockBufs pb rnd first b.flags.blockCount.toInt.toNat
        b.flags.blockSize.toInt.toNat).length := by
      have hcount := h.count
      rw [blockBufs_length]
      omega
    obtain ⟨buf, hbuf⟩ := List.exists_mem_of_length_pos hpos
    refine ⟨buf, hbuf, ?_⟩
    rw [hpb.blockBufs_size hserv.fits buf hbuf]
    exact h.block
  rintro ⟨hrequest, hrsp⟩
  by_cases hread : b.flags.workload = .read
  · obtain ⟨buf, hbuf, hover⟩ := hblock (b.server k).rnd 0
    rw [Bench.rsp, hread] at hrsp
    exact hover (hrsp buf (List.mem_cons_of_mem _ hbuf))
  · obtain ⟨buf, hbuf, hover⟩ := hblock (b.ops k).rnd 1
    rw [Bench.request_eq hserv, reqBufs, if_neg hread] at hrequest
    exact hover (hrequest buf (List.mem_cons_of_mem _ hbuf))

/-- **Blocks over the limit fail a benchmark** over gRPC and FlatBuffers, in every run of any number
of clients: `main` prints no statistics and not `Test passed`, and ends with an error. -/
theorem benchmark_refused (hpb : pb.Lawful) {verbosity : ℕ} (ovf : ℤ → ℤ) (b : ι → Bench)
    (t : StreamTransport) (net : Network (ι × ℕ)) (l : ι → Links) {i : ι}
    (hserv : (b i).flags.Servable) (hover : (b i).flags.Oversized net.limit)
    (hto : ∀ u, 1 ≤ (l i).toServerWindow u) (hfrom : ∀ u, 1 ≤ (l i).toClientWindow u)
    {ls : List ι} {s : State ι (MainPc D) (ι × ℕ → Session)}
    (hrun : Run (Step (fun i => clientProgram pb 0 ovf (b i).flags (b i).ops)
        (NetworkStep net (Bench.streamCalls pb verbosity b t l)) streamAnswer)
      ⟨fun _ => {}, fun i => clientStart pb 0 (b i).flags (b i).ops⟩ ls s)
    {run : ClientRun D} (hend : s.pos i = .exited run) :
    run.stdout = [] ∧ ∃ e, run.result = .error e := by
  refine unanswered_fails ovf b hover.ops (fun netLs sys hnet reply hreply => ?_) hrun hend
  have hanswers : (Bench.streamCalls pb verbosity b t l (i, 0)).Answers ((b i).rsp pb 0) :=
    Bench.streamCalls_answers hpb t hserv hto hfrom
  unfold streamAnswer at hreply
  split at hreply
  · rename_i hreturned
    obtain ⟨-, -, htaken⟩ := (network_returned hanswers hnet).1 hreturned
    exact hover.refused hpb hserv 0 htaken
  · cases hreply
  · cases hreply
  · cases hreply

/-- **And over Cap'n Proto**, where all clients have flags that the server can serve. -/
theorem benchmark_capnp_refused (hpb : pb.Lawful) {verbosity : ℕ} (ovf : ℤ → ℤ) (b : ι → Bench)
    (net : Network (ι × ℕ)) (l : ι → Links) {i : ι} (hserv : ∀ i, (b i).flags.Servable)
    (hover : (b i).flags.Oversized net.limit) {ls : List ι}
    {s : State ι (MainPc D) (CapnpState (ι × ℕ))}
    (hrun : Run (Step (fun i => clientProgram pb 0 ovf (b i).flags (b i).ops)
        (CapnpNetworkStep net (Bench.capnpCalls pb verbosity b l)) capnpAnswer)
      ⟨{}, fun i => clientStart pb 0 (b i).flags (b i).ops⟩ ls s)
    {run : ClientRun D} (hend : s.pos i = .exited run) :
    run.stdout = [] ∧ ∃ e, run.result = .error e := by
  refine unanswered_fails ovf b hover.ops (fun netLs sys hnet reply hreply => ?_) hrun hend
  by_cases hfin : (sys.conn (i, 0)).stream = some .finished
  · obtain ⟨-, htaken⟩ := capnp_network_returned (i := (i, 0))
      (fun c => Bench.rcvFn_request hpb (hserv c.1) c.2) hnet hfin
    exact hover.refused hpb (hserv i) 0 htaken
  · rw [capnpAnswer, if_neg hfin] at hreply
    split at hreply
    · cases hreply
    · cases hreply

end Benchmark

end RpcTransport

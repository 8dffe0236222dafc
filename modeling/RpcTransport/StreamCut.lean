import RpcTransport.StreamRuns
import RpcTransport.Workloads

/-!
# Requests that are cut off

The client crashes, is cancelled or loses its connection before it has half-closed, and the handler
gets the first `k` buffers.  `Read` returns `false` then as it does at the end of a request, and the
handler does not ask why: it calls `rcvFn` with what it has.

* `Uncut` — what holds before the cut, `Severed` — what holds after it, step by step;
* `cutSafe_iff` — for an arbitrary request and receive function, the cut points that do no harm;
* `cut_request_iff` — the same for the requests of the client and `ServerRcvFn`.
-/

namespace RpcTransport

open Fifo (Passing)
open Relation (ReflTransGen)

/-- The stream ends before the half-close and the handler gets `k` buffers in all: the ones it has
read and the first ones on their way. -/
inductive Cut (k : ℕ) (s : Session) : Session → Prop
  | mk (j : ℕ) (status : Status) (hcreated : s.stream.created = true)
      (hopen : s.stream.halfClosed = false) (hunbroken : s.stream.broken = none)
      (hj : j ≤ s.stream.toServer.length) (hk : s.handler.rcvMsg.length + j = k)
      (hcode : status.code ≠ 0) :
      Cut k s { s with
        stream := { s.stream with toServer := s.stream.toServer.take j, broken := some status } }

/-- In every run in which the stream is cut off at `k`, the receive function is called with the
complete request or not at all, and it does not bring the server down. -/
def CutSafe (x : CallSetup) (k : ℕ) : Prop :=
  ∀ s₁ s₂ s₃, ReflTransGen (SessionStep x) {} s₁ → Cut k s₁ s₂ →
    ReflTransGen (SessionStep x) s₂ s₃ →
      (s₃.handler.calls = [] ∨ s₃.handler.calls = [x.request]) ∧ ∀ e, s₃.handler.pc ≠ .aborted e

/-! ### What the read loop takes out -/

theorem StreamTransport.takeData_pack (t : StreamTransport) (buf : DataBuf) :
    (t.pack buf).takeData = .ok buf ∨ (t.pack buf).takeData = .error .nullDeref := by
  cases t with
  | grpc =>
      rw [pack, grpcMsg, WireMsg.takeData]
      by_cases h : buf = [] <;> simp [h]
  | flatbuffers => exact .inl rfl

theorem StreamTransport.not_carries_iff {t : StreamTransport} {buf : DataBuf} :
    ¬ t.Carries buf ↔ t = .grpc ∧ buf = [] := by
  cases t with
  | grpc =>
      rw [Carries, pack, grpcMsg, WireMsg.takeData]
      by_cases h : buf = [] <;> simp [h]
  | flatbuffers => simp [flatbuffers_carries]

/-! ### Before the cut -/

/-- The handler while the client is still writing. -/
inductive Reading (x : CallSetup) (unsent : Msg) : ReqReply → List WireMsg → Prop
  | reading {pc : HandlerPc} {rcvMsg : Msg} {toServer : List WireMsg}
      (hpc : pc = .idle ∨ pc = .read)
      (hpass : Passing x.transport.pack x.request rcvMsg toServer unsent)
      (hcarried : ∀ buf ∈ rcvMsg, x.transport.Carries buf) :
      Reading x unsent ⟨pc, rcvMsg, []⟩ toServer
  | crashed {e : Fault} {rcvMsg : Msg} {toServer : List WireMsg} :
      Reading x unsent ⟨.crashed e, rcvMsg, []⟩ toServer

/-- What holds until the stream is cut off or half-closed. -/
structure Uncut (x : CallSetup) (s : Session) : Prop where
  broken : s.stream.broken = none
  closed : s.stream.halfClosed = s.client.pc.closed
  reading : s.stream.halfClosed = false →
    s.stream.status = none ∧ Reading x (s.client.pc.unsent x.request) s.handler s.stream.toServer

theorem Uncut.init (x : CallSetup) : Uncut x {} where
  broken := rfl
  closed := rfl
  reading := fun _ => ⟨rfl, .reading (.inl rfl) (Passing.start _) (by simp)⟩

theorem Reading.push {x : CallSetup} {buf : DataBuf} {bufs : Msg} {k : ReqReply}
    {toServer : List WireMsg} (h : Reading x (buf :: bufs) k toServer) :
    Reading x bufs k (toServer ++ [x.transport.pack buf]) := by
  cases h with
  | reading hpc hpass hcarried => exact .reading hpc hpass.push hcarried
  | crashed => exact .crashed

theorem Uncut.client_step {x : CallSetup} {s : Session} (h : Uncut x s) {c : SendReq} {st : Stream}
    (hstep : sendReqStep x s.client s.stream = some (c, st)) :
    Uncut x { s with client := c, stream := st } := by
  have hclosed := h.closed
  have hreading := h.reading
  -- after the half-close there is nothing to say about the handler
  have hafter : s.client.pc.closed = true → c.pc.closed = true →
      st.broken = s.stream.broken → st.halfClosed = s.stream.halfClosed →
      Uncut x { s with client := c, stream := st } := by
    intro hpc hpc' hbroken hhalf
    have hpast : st.halfClosed = true := by rw [hhalf, hclosed, hpc]
    exact ⟨hbroken.trans h.broken, hpast.trans hpc'.symm,
      fun hopen => Bool.noConfusion (hpast.symm.trans hopen)⟩
  cases sendReqStep_cases hstep with
  | reqReply hpc =>
      rw [hpc] at hclosed hreading
      exact ⟨h.broken, hclosed, hreading⟩
  | setDeadline hpc =>
      rw [hpc] at hclosed hreading
      exact ⟨h.broken, hclosed, hreading⟩
  | writeOver hpc hover =>
      rw [hpc] at hclosed hreading
      obtain ⟨hstatus, -⟩ := hreading hclosed
      rw [Stream.final, hstatus, h.broken] at hover
      cases hover
  | write hpc _ _ =>
      rw [hpc] at hclosed hreading
      obtain ⟨hstatus, hread⟩ := hreading hclosed
      exact ⟨h.broken, hclosed, fun _ => ⟨hstatus, hread.push⟩⟩
  | writesDone hpc =>
      refine ⟨h.broken, by rw [h.broken]; rfl, fun hopen => ?_⟩
      rw [h.broken] at hopen
      cases hopen
  | read hpc _ _ => exact hafter (by rw [hpc]; rfl) (by rw [hpc]; rfl) rfl rfl
  | readNull hpc _ _ => exact hafter (by rw [hpc]; rfl) rfl rfl rfl
  | readEnd hpc _ _ => exact hafter (by rw [hpc]; rfl) rfl rfl rfl
  | finish hpc _ _ => exact hafter (by rw [hpc]; rfl) rfl rfl rfl
  | finishThrow hpc _ _ => exact hafter (by rw [hpc]; rfl) rfl rfl rfl

/-- The handler leaves the half-close and the end of the call alone. -/
theorem reqReplyStep_frame {x : CallSetup} {k k' : ReqReply} {st st' : Stream}
    (hstep : reqReplyStep x k st = some (k', st')) :
    st'.broken = st.broken ∧ st'.halfClosed = st.halfClosed := by
  cases reqReplyStep_cases hstep <;> exact ⟨rfl, rfl⟩

/-- A buffer that the read loop takes out is the next one, and the transport carries it. -/
theorem read_carried {x : CallSetup} {whole rcvMsg unsent : Msg} {toServer ms : List WireMsg}
    {m : WireMsg} {buf : DataBuf} (hpass : Passing x.transport.pack whole rcvMsg toServer unsent)
    (hcarried : ∀ b ∈ rcvMsg, x.transport.Carries b) (hqueue : toServer = m :: ms)
    (htake : m.takeData = .ok buf) :
    Passing x.transport.pack whole (rcvMsg ++ [buf]) ms unsent ∧
      ∀ b ∈ rcvMsg ++ [buf], x.transport.Carries b := by
  rw [hqueue] at hpass
  obtain ⟨next, -, rfl, hpass'⟩ := hpass.pop
  have hnext : x.transport.Carries next := by
    rcases x.transport.takeData_pack next with hok | hnull
    · exact hok
    · exact nomatch hnull.symm.trans htake
  obtain rfl := Except.ok.inj (hnext.symm.trans htake)
  refine ⟨hpass', fun b hb => ?_⟩
  rcases List.mem_append.mp hb with hb | hb
  · exact hcarried b hb
  · rw [List.mem_singleton.mp hb]
    exact hnext

/-- A step of the handler that is still reading, while the end of the stream is not in sight. -/
theorem Reading.handler_step {x : CallSetup} {unsent : Msg} {k k' : ReqReply} {st st' : Stream}
    (h : Reading x unsent k st.toServer) (hopen : st.halfClosed = false)
    (hbroken : st.broken = none) (hstep : reqReplyStep x k st = some (k', st')) :
    st'.status = st.status ∧ Reading x unsent k' st'.toServer := by
  cases h with
  | reading hpc hpass hcarried =>
      cases reqReplyStep_cases hstep with
      | start _ _ => exact ⟨rfl, .reading (.inr rfl) hpass hcarried⟩
      | read hpc' hqueue htake =>
          obtain ⟨hpass', hcarried'⟩ := read_carried hpass hcarried hqueue htake
          exact ⟨rfl, .reading hpc hpass' hcarried'⟩
      | readNull _ _ _ => exact ⟨rfl, .crashed⟩
      | readEnd _ _ hend =>
          rw [hopen, hbroken] at hend
          cases hend
      -- the other lines of the handler come after the read loop
      | _ hpc' => rcases hpc with rfl | rfl <;> cases hpc'
  | crashed => simp only [reqReplyStep] at hstep; cases hstep

theorem Uncut.handler_step {x : CallSetup} {s : Session} (h : Uncut x s) {k : ReqReply}
    {st : Stream} (hstep : reqReplyStep x s.handler s.stream = some (k, st)) :
    Uncut x { s with handler := k, stream := st } := by
  obtain ⟨hbroken, hhalf⟩ := reqReplyStep_frame hstep
  refine ⟨hbroken.trans h.broken, hhalf.trans h.closed, fun hopen => ?_⟩
  rw [hhalf] at hopen
  obtain ⟨hstatus, hread⟩ := h.reading hopen
  obtain ⟨hsame, hread'⟩ := hread.handler_step hopen h.broken hstep
  exact ⟨hsame.trans hstatus, hread'⟩

theorem Uncut.reachable {x : CallSetup} {s : Session} (h : ReflTransGen (SessionStep x) {} s) :
    Uncut x s := by
  induction h with
  | refl => exact Uncut.init x
  | tail _ hstep ih =>
      cases hstep with
      | client hstep => exact ih.client_step hstep
      | handler hstep => exact ih.handler_step hstep

/-! ### After the cut -/

/-- The handler after a cut at `k`: it sees the first `k` buffers as the whole request. -/
inductive Severed (x : CallSetup) (k : ℕ) : ReqReply → List WireMsg → Prop
  | reading {pc : HandlerPc} {rcvMsg : Msg} {toServer : List WireMsg}
      (hpc : pc = .idle ∨ pc = .read)
      (hpass : Passing x.transport.pack (x.request.take k) rcvMsg toServer [])
      (hcarried : ∀ buf ∈ rcvMsg, x.transport.Carries buf) :
      Severed x k ⟨pc, rcvMsg, []⟩ toServer
  | heard {toServer : List WireMsg} (hcarried : ∀ buf ∈ x.request.take k, x.transport.Carries buf) :
      Severed x k ⟨.rcvFn, x.request.take k, []⟩ toServer
  | served {pc : HandlerPc} {toServer : List WireMsg} (hpc : pc.served = true)
      (hcarried : ∀ buf ∈ x.request.take k, x.transport.Carries buf) :
      Severed x k ⟨pc, x.request.take k, [x.request.take k]⟩ toServer
  | aborted {e : Fault} {toServer : List WireMsg}
      (hcarried : ∀ buf ∈ x.request.take k, x.transport.Carries buf)
      (hrcv : x.rcvFn (x.request.take k) [] = .error e) :
      Severed x k ⟨.aborted e, x.request.take k, [x.request.take k]⟩ toServer
  | crashed {e : Fault} {rcvMsg : Msg} {toServer : List WireMsg} :
      Severed x k ⟨.crashed e, rcvMsg, []⟩ toServer

/-- The cut leaves the handler with the first `k` buffers. -/
theorem Uncut.severed {x : CallSetup} {k : ℕ} {s s' : Session} (h : Uncut x s) (hcut : Cut k s s') :
    s'.stream.broken.isSome = true ∧ Severed x k s'.handler s'.stream.toServer := by
  cases hcut with
  | mk j status hcreated hopen hunbroken hj hk hcode =>
      refine ⟨rfl, ?_⟩
      obtain ⟨-, hread⟩ := h.reading hopen
      obtain ⟨client, stream, handler⟩ := s
      cases hread with
      | reading hpc hpass hcarried =>
          subst hk
          exact .reading hpc (hpass.cut hj) hcarried
      | crashed => exact .crashed

/-- **A step of the handler after the cut.** -/
theorem Severed.handler_step {x : CallSetup} {n : ℕ} {k k' : ReqReply} {st st' : Stream}
    (h : Severed x n k st.toServer) (hstep : reqReplyStep x k st = some (k', st')) :
    Severed x n k' st'.toServer := by
  cases h with
  | reading hpc hpass hcarried =>
      cases reqReplyStep_cases hstep with
      | start _ _ => exact .reading (.inr rfl) hpass hcarried
      | read hpc' hqueue htake =>
          obtain ⟨hpass', hcarried'⟩ := read_carried hpass hcarried hqueue htake
          exact .reading hpc hpass' hcarried'
      | readNull _ _ _ => exact .crashed
      | readEnd _ hempty _ =>
          -- the queue is empty and the stream broken: `Read` returns `false`
          rw [hempty] at hpass
          have hall := hpass.whole_eq
          rw [List.append_nil] at hall
          rw [← hall] at hcarried ⊢
          exact .heard hcarried
      -- the other lines of the handler come after the read loop
      | _ hpc' => rcases hpc with rfl | rfl <;> cases hpc'
  | heard hcarried =>
      cases reqReplyStep_cases hstep with
      | rcvFn _ _ => exact .served rfl hcarried
      | abort _ hrcv => exact .aborted hcarried hrcv
      | _ hpc' => cases hpc'
  | served hpc hcarried =>
      cases reqReplyStep_cases hstep with
      | writeBroken _ _ => exact .served rfl hcarried
      | write _ _ _ => exact .served rfl hcarried
      | returnBroken _ _ => exact .served rfl hcarried
      | returnOk _ _ => exact .served rfl hcarried
      | _ hpc' => cases hpc'; cases hpc
  | aborted hcarried hrcv => simp only [reqReplyStep] at hstep; cases hstep
  | crashed => simp only [reqReplyStep] at hstep; cases hstep

/-- Once the call is over, what the client does reaches nobody. -/
theorem sendReqStep_frame {x : CallSetup} {c c' : SendReq} {st st' : Stream}
    (hbroken : st.broken.isSome = true) (hstep : sendReqStep x c st = some (c', st')) :
    st'.broken = st.broken ∧ st'.toServer = st.toServer := by
  cases sendReqStep_cases hstep with
  | write _ hopen _ =>
      rw [Stream.final, Option.isSome_or, hbroken, Bool.or_true] at hopen
      exact (hopen rfl).elim
  | _ => exact ⟨rfl, rfl⟩

/-- **Runs after the cut.** -/
theorem Severed.reachable {x : CallSetup} {k : ℕ} {s s' : Session}
    (hbroken : s.stream.broken.isSome = true) (h : Severed x k s.handler s.stream.toServer)
    (hrun : ReflTransGen (SessionStep x) s s') : Severed x k s'.handler s'.stream.toServer := by
  suffices hboth : s'.stream.broken.isSome = true ∧ Severed x k s'.handler s'.stream.toServer from
    hboth.2
  induction hrun with
  | refl => exact ⟨hbroken, h⟩
  | tail _ hstep ih =>
      obtain ⟨hbroken', h'⟩ := ih
      cases hstep with
      | client hstep =>
          obtain ⟨hb, hq⟩ := sendReqStep_frame hbroken' hstep
          exact ⟨by rw [hb]; exact hbroken', by rw [hq]; exact h'⟩
      | handler hstep =>
          have hb := (reqReplyStep_frame hstep).1
          exact ⟨by rw [hb]; exact hbroken', h'.handler_step hstep⟩

/-! ### A run to each cut point -/

/-- The client has written the first `i` buffers and the handler has read them. -/
def passed (x : CallSetup) (i : ℕ) : Session where
  client := { pc := .write (x.request.drop i), context := some (x.now + 10000) }
  stream := { created := true }
  handler := { pc := .read, rcvMsg := x.request.take i }

theorem reach_passed_zero (x : CallSetup) : ReflTransGen (SessionStep x) {} (passed x 0) := by
  refine .tail (.tail (.tail .refl (.client rfl)) (.client rfl)) ?_
  exact SessionStep.handler rfl

/-- The next buffer is written and read. -/
theorem reach_passed_succ {x : CallSetup} {i : ℕ} (hwindow : 1 ≤ x.toServerWindow)
    (hi : i < x.request.length) (hcarry : x.transport.Carries x.request[i]) :
    ReflTransGen (SessionStep x) (passed x i) (passed x (i + 1)) := by
  have hwrite : sendReqStep x (passed x i).client (passed x i).stream
      = some ((passed x (i + 1)).client,
        { (passed x i).stream with toServer := [x.transport.pack x.request[i]] }) := by
    simp only [sendReqStep, passed, List.drop_eq_getElem_cons hi]
    rw [if_neg (by simp [Stream.final]), if_pos (show ([] : List WireMsg).length < _ from hwindow)]
    rfl
  have hread : reqReplyStep x (passed x i).handler
      { (passed x i).stream with toServer := [x.transport.pack x.request[i]] }
      = some ((passed x (i + 1)).handler, (passed x (i + 1)).stream) := by
    simp only [reqReplyStep, passed]
    rw [hcarry, List.take_succ_eq_append_getElem hi]
  exact .tail (.tail .refl (.client hwrite)) (.handler hread)

/-- If the transport carries the first `k` buffers, a run gets them across. -/
theorem reach_passed {x : CallSetup} (hwindow : 1 ≤ x.toServerWindow) : ∀ k,
    k ≤ x.request.length → (∀ buf ∈ x.request.take k, x.transport.Carries buf) →
    ReflTransGen (SessionStep x) {} (passed x k) := by
  intro k
  induction k with
  | zero => intro _ _; exact reach_passed_zero x
  | succ k ih =>
      intro hk hcarried
      rw [List.take_succ_eq_append_getElem hk] at hcarried
      refine (ih (by omega) fun buf hbuf =>
        hcarried buf (List.mem_append_left _ hbuf)).trans ?_
      exact reach_passed_succ hwindow hk (hcarried _ (List.mem_append_right _ (by simp)))

/-- If the transport carries the first `k` buffers, some run is cut off at `k` and goes on until the
receive function has been called with these. -/
theorem exists_cut_call {x : CallSetup} (hwindow : 1 ≤ x.toServerWindow) {k : ℕ}
    (hk : k ≤ x.request.length) (hcarried : ∀ buf ∈ x.request.take k, x.transport.Carries buf) :
    ∃ s₁ s₂ s₃, ReflTransGen (SessionStep x) {} s₁ ∧ Cut k s₁ s₂ ∧
      ReflTransGen (SessionStep x) s₂ s₃ ∧ s₃.handler.calls = [x.request.take k] ∧
      ∀ e, x.rcvFn (x.request.take k) [] = .error e → s₃.handler.pc = .aborted e := by
  -- all `k` buffers get across; then the stream is cut off with nothing on its way
  have hreach := reach_passed hwindow k hk hcarried
  have hcut := Cut.mk (s := passed x k) (k := k) 0 ⟨14, ""⟩ rfl rfl rfl le_rfl
    (by simp [passed, hk]) (by decide)
  set stream : Stream :=
    { (passed x k).stream with toServer := [], broken := some ⟨14, ""⟩ } with hstream
  have hend : reqReplyStep x (passed x k).handler stream
      = some ({ pc := .rcvFn, rcvMsg := x.request.take k }, stream) := rfl
  cases hrcv : x.rcvFn (x.request.take k) [] with
  | ok rsp =>
      have hcall : reqReplyStep x { pc := .rcvFn, rcvMsg := x.request.take k } stream
          = some ({ pc := .write rsp, rcvMsg := x.request.take k,
                    calls := [x.request.take k] }, stream) := by
        simp [reqReplyStep, hrcv]
      exact ⟨_, _, _, hreach, hcut, .tail (.tail .refl (.handler hend)) (.handler hcall), rfl,
        fun e he => by cases he⟩
  | error e =>
      have hcall : reqReplyStep x { pc := .rcvFn, rcvMsg := x.request.take k } stream
          = some ({ pc := .aborted e, rcvMsg := x.request.take k,
                    calls := [x.request.take k] }, stream) := by
        simp [reqReplyStep, hrcv]
      exact ⟨_, _, _, hreach, hcut, .tail (.tail .refl (.handler hend)) (.handler hcall), rfl,
        fun e' he => by cases he; rfl⟩

/-! ### The cut points that do no harm -/

/-- **Which cut points are harmless.**  Either gRPC cannot carry one of the first `k` buffers, and
the server crashes before it gets to the call, or nothing is missing and the receive function
returns. -/
theorem cutSafe_iff (x : CallSetup) (hwindow : 1 ≤ x.toServerWindow) {k : ℕ}
    (hk : k ≤ x.request.length) :
    CutSafe x k ↔ (x.transport = .grpc ∧ [] ∈ x.request.take k) ∨
      (k = x.request.length ∧ ∃ rsp, x.rcvFn x.request [] = .ok rsp) := by
  constructor
  · intro hsafe
    by_cases hcarried : ∀ buf ∈ x.request.take k, x.transport.Carries buf
    · right
      obtain ⟨s₁, s₂, s₃, hbefore, hcut, hafter, hcalls, habort⟩ :=
        exists_cut_call hwindow hk hcarried
      obtain ⟨hall, hup⟩ := hsafe s₁ s₂ s₃ hbefore hcut hafter
      rw [hcalls] at hall
      have hwhole : x.request.take k = x.request := by
        rcases hall with hnone | hwhole
        · cases hnone
        · exact (List.cons.inj hwhole).1
      have hlen := congrArg List.length hwhole
      rw [List.length_take, min_eq_left hk] at hlen
      refine ⟨hlen, ?_⟩
      rw [hwhole] at habort
      cases hrcv : x.rcvFn x.request [] with
      | ok rsp => exact ⟨rsp, rfl⟩
      | error e => exact (hup e (habort e hrcv)).elim
    · left
      push Not at hcarried
      obtain ⟨buf, hmem, hnot⟩ := hcarried
      obtain ⟨hgrpc, rfl⟩ := StreamTransport.not_carries_iff.mp hnot
      exact ⟨hgrpc, hmem⟩
  · intro hcond s₁ s₂ s₃ hbefore hcut hafter
    obtain ⟨hbroken, hsevered⟩ := (Uncut.reachable hbefore).severed hcut
    have hend := Severed.reachable hbroken hsevered hafter
    -- a handler that got to the call has been handed buffers that were all carried
    have hwhole : (∀ buf ∈ x.request.take k, x.transport.Carries buf) →
        x.request.take k = x.request ∧ ∃ rsp, x.rcvFn x.request [] = .ok rsp := by
      intro hcarried
      rcases hcond with ⟨hgrpc, hmem⟩ | ⟨hlen, hrcv⟩
      · exact (StreamTransport.not_carries_iff.mpr ⟨hgrpc, rfl⟩ (hcarried [] hmem)).elim
      · exact ⟨by rw [hlen, List.take_length], hrcv⟩
    generalize s₃.handler = handler at hend
    cases hend with
    | reading hpc hpass hcarried =>
        refine ⟨.inl rfl, fun e hpc' => ?_⟩
        rcases hpc with rfl | rfl <;> cases hpc'
    | heard hcarried => exact ⟨.inl rfl, fun e => HandlerPc.noConfusion⟩
    | served hpc hcarried =>
        refine ⟨.inr (by rw [(hwhole hcarried).1]), fun e hpc' => ?_⟩
        subst hpc'
        cases hpc
    | aborted hcarried hrcv =>
        obtain ⟨heq, rsp, hok⟩ := hwhole hcarried
        rw [heq, hok] at hrcv
        cases hrcv
    | crashed => exact ⟨.inl rfl, fun e => HandlerPc.noConfusion⟩

/-- **The cut points of the client's requests.**  A request that the client builds and that is cut
off at `k` is handled safely exactly when gRPC cannot carry one of the `k` buffers, or when the cut
comes after the last buffer and the flags are ones the server returns on. -/
theorem cut_request_iff {pb : Protobuf} (hpb : pb.Lawful) (clientVerbosity serverVerbosity : ℕ)
    {w : Workload} {rnd : Random} {blockSize blockCount : Int32} {env : ServerEnv} (x : CallSetup)
    (hreq : (reqFill pb clientVerbosity w rnd blockSize blockCount []).val = .ok x.request)
    (hrcv : x.rcvFn = fun req rsp => (serverRcvFn pb serverVerbosity env req rsp).val)
    (hwindow : 1 ≤ x.toServerWindow) {k : ℕ} (hk : k ≤ x.request.length) :
    CutSafe x k ↔ (x.transport = .grpc ∧ [] ∈ x.request.take k) ∨
      (k = x.request.length ∧ RequestServed w blockSize blockCount) := by
  rw [cutSafe_iff x hwindow hk, hrcv, serverRcvFn_built_iff hpb env hreq]

/-- A write request of one block of one byte, over FlatBuffers. -/
def oneBlockWrite : CallSetup where
  transport := .flatbuffers
  toServerWindow := 1
  toClientWindow := 1
  now := 0
  request := reqBufs wireProtobuf .write (fun _ _ => 0) 1 1
  rcvFn := fun req rsp => (serverRcvFn wireProtobuf 0 ⟨fun _ _ => 0, 0, 0⟩ req rsp).val

theorem cut_request_whole :
    CutSafe oneBlockWrite 2 ↔
      (oneBlockWrite.transport = .grpc ∧ [] ∈ oneBlockWrite.request.take 2) ∨
        (2 = oneBlockWrite.request.length ∧ RequestServed .write 1 1) :=
  cut_request_iff wireProtobuf_lawful 0 0 oneBlockWrite
    (reqFill_ok .write (fun _ _ => 0) (by decide) (by decide) (by decide)) rfl le_rfl le_rfl

/-- Cut off after its header, the request is processed as if it were whole. -/
theorem cut_after_header : ¬ CutSafe oneBlockWrite 1 := by
  rw [cutSafe_iff oneBlockWrite le_rfl (by decide)]
  rintro (⟨hgrpc, -⟩ | ⟨hlen, -⟩)
  · cases hgrpc
  · exact absurd hlen (by decide)

end RpcTransport

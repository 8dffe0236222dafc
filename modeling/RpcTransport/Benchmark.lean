import RpcTransport.ClientRuns
import RpcTransport.Interchange
import RpcTransport.Lib.RemoteProgram
import RpcTransport.Network
import RpcTransport.Workloads

/-!
# Benchmarks: client programs against one server program

Any number of `rt_client` processes run `main` against one `rt_server` process.  The loop of `main`
is a program that waits in `transport->sendReq` for each of its operations; what the transport does
for it is a call of the stream system or of the Cap'n Proto system, interleaved with the calls of
all other clients, and what the server does with it is `ServerRcvFn`.

* `clientProgram_runLocal` — with local calls the program is `clientMain`;
* `benchmark_passes` — over a network that delivers every call, every client gets to its end with
  `Test passed` printed, and its samples are those of its own calls;
* `benchmark_stream`, `benchmark_capnp` — the two systems are such networks, where the limit for
  messages lets headers and blocks through and connections hold.
-/

namespace RpcTransport

open Transition RemoteProgram

/-- What an operation meets on the client's side: the random bytes, the two readings of the clock,
and the memory beyond the reply's buffers. -/
structure OpInput where
  rnd : Random
  startNs : ℤ
  endNs : ℤ
  after : Beyond

/-- The operation over a given transport. -/
def OpInput.env (op : OpInput) (sendReq : Msg → Except Fault Msg) : OpEnv where
  rnd := op.rnd
  startNs := op.startNs
  endNs := op.endNs
  sendReq := sendReq
  after := op.after

section Program

variable (pb : Protobuf) (verbosity : ℕ) {D : Type} [IntCast D] [Sub D] [Div D]
variable (ovf : ℤ → ℤ) (flags : ClientFlags) (ops : ℕ → OpInput)

/-- The part of an operation before the call: the request is built, and its first byte dumped. -/
def opRequest (op : OpInput) : Except Fault Msg :=
  match (reqFill pb verbosity flags.workload op.rnd flags.blockSize flags.blockCount []).val with
  | .error e => .error e
  | .ok req =>
    match (vlog verbosity LogLevel.stringMem
        (do let first ← vecAt req 0; bytesToHex first 1)).val with
    | .error e => .error e
    | .ok () => .ok req

/-- Where `main` stands: in the call of operation `k`, with the accumulators so far and `todo`
operations after it, or at its end. -/
inductive MainPc (D : Type)
  | sendReq (k todo : ℕ) (st : ClientState D)
  | exited (run : ClientRun D)

/-- The end of a run whose loop has left `st`. -/
def ClientRun.ofLoop : ClientState D × Except Fault Unit → ClientRun D
  | (st, .ok ()) =>
      { final := st
        stdout := [.stats "Throughput (Mbps)" st.tput, .stats "Latency (ms)" st.lat, .testPassed]
        result := .ok () }
  | (st, .error e) => { final := st, stdout := [], result := .error e }

/-- From operation `k` on, with `n` operations to do, up to the next call. -/
def mainLoop (k : ℕ) : ℕ → ClientState D → MainPc D
  | 0, st => .exited (.ofLoop (st, .ok ()))
  | n + 1, st =>
      match opRequest pb verbosity flags (ops k) with
      | .ok _ => .sendReq k n st
      | .error e => .exited (.ofLoop (st, .error e))

/-- From the return of a call up to the next one. -/
def mainResume : MainPc D → Except Fault Msg → MainPc D
  | .sendReq k n st, reply =>
      match clientOp pb verbosity ovf flags ((ops k).env fun _ => reply) st with
      | (st', .ok ()) => mainLoop pb verbosity flags ops (k + 1) n st'
      | (st', .error e) => .exited (.ofLoop (st', .error e))
  | .exited run, _ => .exited run

/-- The call `main` waits for. -/
def MainPc.pending : MainPc D → Option ℕ
  | .sendReq k _ _ => some k
  | .exited _ => none

/-- The calls it still has to return from. -/
def MainPc.todo : MainPc D → ℕ
  | .sendReq _ n _ => n + 1
  | .exited _ => 0

omit [IntCast D] [Sub D] [Div D] in
theorem mainLoop_todo (k n : ℕ) (st : ClientState D) :
    (mainLoop pb verbosity flags ops k n st).todo ≤ n := by
  cases n with
  | zero => exact le_rfl
  | succ n =>
      rw [mainLoop]
      split
      · exact le_rfl
      · exact Nat.zero_le _

/-- `main` of the client, as a program of calls. -/
def clientProgram : Program (MainPc D) ℕ (Except Fault Msg) where
  pending := MainPc.pending
  resume := mainResume pb verbosity ovf flags ops
  left := MainPc.todo
  left_resume := by
    intro pc k reply hk
    cases pc with
    | exited run => cases hk
    | sendReq k n st =>
        rw [mainResume]
        split
        · exact Nat.lt_succ_of_le (mainLoop_todo pb verbosity flags ops _ n _)
        · exact Nat.succ_pos n

/-- Where `main` stands at the beginning of its loop. -/
def clientStart : MainPc D := mainLoop pb verbosity flags ops 0 flags.opCount.toInt.toNat {}

variable {pb verbosity ovf flags ops}

/-- Before the call an operation does what `opRequest` says; the call itself only matters for that
request. -/
theorem clientOp_env {op : OpInput} {sendReq : Msg → Except Fault Msg} (st : ClientState D) :
    clientOp pb verbosity ovf flags (op.env sendReq) st
      = match opRequest pb verbosity flags op with
        | .ok req => clientOp pb verbosity ovf flags (op.env fun _ => sendReq req) st
        | .error e => (st, .error e) := by
  simp only [clientOp, opRequest, OpInput.env]
  cases (reqFill pb verbosity flags.workload op.rnd flags.blockSize flags.blockCount []).val with
  | error e => rfl
  | ok req =>
      dsimp only
      cases (vlog verbosity LogLevel.stringMem
        (do let first ← vecAt req 0; bytesToHex first 1)).val with
      | error e => rfl
      | ok _ => rfl

/-- From any operation on, the program with local calls is the loop. -/
theorem mainLoop_runLocal {answer : ℕ → Msg → Except Fault Msg} {reply : ℕ → Except Fault Msg}
    (hreply : ∀ k req, opRequest pb verbosity flags (ops k) = .ok req → answer k req = reply k) :
    ∀ (n k : ℕ) (st : ClientState D),
      (clientProgram pb verbosity ovf flags ops).runLocal reply
          (mainLoop pb verbosity flags ops k n st)
        = .exited (.ofLoop
            (clientLoop pb verbosity ovf flags (fun k => (ops k).env (answer k)) k n st)) := by
  intro n
  induction n with
  | zero =>
      intro k st
      exact Program.runLocal_none rfl
  | succ n ih =>
      intro k st
      rw [mainLoop, clientLoop, clientOp_env]
      cases hreq : opRequest pb verbosity flags (ops k) with
      | error e => exact Program.runLocal_none rfl
      | ok req =>
          dsimp only
          rw [Program.runLocal_some (k := k) rfl, hreply k req hreq]
          show (clientProgram pb verbosity ovf flags ops).runLocal reply
            (mainResume pb verbosity ovf flags ops (.sendReq k n st) (reply k)) = _
          rw [mainResume]
          obtain ⟨st', res⟩ :=
            clientOp pb verbosity ovf flags ((ops k).env fun _ => reply k) st
          cases res with
          | ok _ => exact ih (k + 1) st'
          | error e => exact Program.runLocal_none rfl

/-- **With local calls the program is `clientMain`.** -/
theorem clientProgram_runLocal {answer : ℕ → Msg → Except Fault Msg} {reply : ℕ → Except Fault Msg}
    (hreply : ∀ k req, opRequest pb verbosity flags (ops k) = .ok req → answer k req = reply k) :
    (clientProgram pb verbosity ovf flags ops).runLocal reply
        (clientStart pb verbosity flags ops : MainPc D)
      = .exited (clientMain pb verbosity ovf flags fun k => (ops k).env (answer k)) := by
  rw [clientStart, mainLoop_runLocal hreply, clientMain]
  congr 1

end Program

/-! ### Flags the server can serve -/

/-- The sizes and counts the two programs can run every workload with.  Whether a transport lets the
blocks through is `MessageLimit.Carries`. -/
structure ClientFlags.Servable (flags : ClientFlags) : Prop where
  size : 0 ≤ flags.blockSize.toInt
  fits : dataPayloadSize flags.blockSize.toInt.toNat ≤ maxInt
  count : 0 ≤ flags.blockCount.toInt
  max : flags.blockCount.toInt ≤ 2 ^ 31 - 2

/-- One client process: its flags, what its operations meet, and what the server draws when it
serves them. -/
structure Bench where
  flags : ClientFlags
  ops : ℕ → OpInput
  server : ℕ → ServerEnv

section Bench

variable (pb : Protobuf) (verbosity : ℕ)

/-- The request of operation `k`, if it can be built. -/
def Bench.request (b : Bench) (k : ℕ) : Msg :=
  match opRequest pb 0 b.flags (b.ops k) with
  | .ok req => req
  | .error _ => []

/-- What the server does with operation `k`. -/
def Bench.rcvFn (b : Bench) (k : ℕ) : RcvFn :=
  fun req rsp => (serverRcvFn pb verbosity (b.server k) req rsp).val

/-- The response to operation `k`. -/
def Bench.rsp (b : Bench) (k : ℕ) : Msg :=
  rspBufs pb b.flags.workload (b.server k) b.flags.blockSize b.flags.blockCount (b.request pb k)

/-- The operations of `main` with the server's answers on the spot. -/
def Bench.localOps (b : Bench) (k : ℕ) : OpEnv :=
  (b.ops k).env fun req => b.rcvFn pb verbosity k req []

variable {pb verbosity} {b : Bench}

theorem opRequest_servable (h : b.flags.Servable) (k : ℕ) :
    opRequest pb 0 b.flags (b.ops k)
      = .ok (reqBufs pb b.flags.workload (b.ops k).rnd b.flags.blockSize b.flags.blockCount) := by
  have hfill : (reqFill pb 0 b.flags.workload (b.ops k).rnd b.flags.blockSize b.flags.blockCount
      []).val
      = .ok (reqBufs pb b.flags.workload (b.ops k).rnd b.flags.blockSize b.flags.blockCount) :=
    reqFill_ok _ _ h.size h.count h.max
  have hlog := vlog_default LogLevel.stringMem (by decide)
  simp only [opRequest, hfill, hlog]

theorem Bench.request_eq (h : b.flags.Servable) (k : ℕ) :
    b.request pb k
      = reqBufs pb b.flags.workload (b.ops k).rnd b.flags.blockSize b.flags.blockCount := by
  rw [Bench.request, opRequest_servable h]

theorem Bench.rcvFn_request (hpb : pb.Lawful) (h : b.flags.Servable) (k : ℕ) :
    b.rcvFn pb verbosity k (b.request pb k) [] = .ok (b.rsp pb k) := by
  rw [Bench.rcvFn, Bench.rsp, Bench.request_eq h]
  exact serverRcvFn_reqBufs hpb _ _ _ h.size h.fits h.count h.max

theorem Bench.request_ne_nil (hpb : pb.Lawful) (h : b.flags.Servable) (k : ℕ) :
    ∀ buf ∈ b.request pb k, buf ≠ [] := by
  rw [Bench.request_eq h]
  exact hpb.reqBufs_ne_nil h.fits

theorem Bench.rsp_ne_nil (hpb : pb.Lawful) (h : b.flags.Servable) (k : ℕ) :
    ∀ buf ∈ b.rsp pb k, buf ≠ [] := by
  have hreq := Bench.request_ne_nil hpb h k
  intro buf hbuf
  rcases List.mem_cons.mp hbuf with rfl | hbuf
  · exact hpb.rspHdr_ne_nil _ _
  · cases hw : b.flags.workload with
    | write => simp [hw] at hbuf
    | read =>
        rw [hw] at hbuf
        exact hpb.blockBufs_ne_nil h.fits buf hbuf
    | echo =>
        rw [hw] at hbuf
        exact hreq buf (List.mem_of_mem_drop hbuf)

theorem Bench.request_taken (hpb : pb.Lawful) (h : b.flags.Servable) {lim : MessageLimit}
    (hlim : lim.Carries b.flags) (k : ℕ) : ∀ buf ∈ b.request pb k, lim.Takes buf.length := by
  rw [Bench.request_eq h]
  exact hlim.request hpb h.fits _ _ _

theorem Bench.rsp_taken (hpb : pb.Lawful) (h : b.flags.Servable) {lim : MessageLimit}
    (hlim : lim.Carries b.flags) (k : ℕ) : ∀ buf ∈ b.rsp pb k, lim.Takes buf.length := by
  rw [Bench.rsp, Bench.request_eq h]
  exact hlim.response hpb h.fits _ _ _ _

/-- Header and blocks, in either direction. -/
theorem Bench.length_le (h : b.flags.Servable) (k : ℕ) :
    (b.request pb k).length + (b.rsp pb k).length ≤ 2 * (b.flags.blockCount.toInt.toNat + 1) := by
  have hreq : (b.request pb k).length ≤ b.flags.blockCount.toInt.toNat + 1 := by
    rw [Bench.request_eq h, reqBufs, List.length_cons]
    split <;> simp
  have hrsp : (b.rsp pb k).length ≤ b.flags.blockCount.toInt.toNat + 1 := by
    unfold Bench.rsp
    cases b.flags.workload with
    | write => exact Nat.le_add_left 1 _
    | read => simp [rspBufs]
    | echo =>
        simp only [rspBufs, List.length_cons, List.length_drop]
        omega
  omega

/-- With the server's answers on the spot, every operation is accepted, with the time the server
has put into its header. -/
theorem Bench.exchanged (hpb : pb.Lawful) (h : b.flags.Servable) (k : ℕ) :
    Exchanged pb b.flags (b.localOps pb verbosity k) (b.request pb k) (b.rsp pb k)
      (reportedUs b.flags.workload (b.server k)) where
  fill := by
    rw [Bench.request_eq h]
    exact reqFill_ok _ _ h.size h.count h.max
  send := Bench.rcvFn_request hpb h k
  header := (getRemoteProcessTimeUs_ok_iff _ _).mp (getRemoteProcessTimeUs_rspHdr hpb _ _ _)
  valid := by
    rw [Bench.rsp, Bench.request_eq h]
    exact replyIsValid_rspBufs hpb _ _ _ h.size h.fits h.count h.max

variable {D : Type} [IntCast D] [Sub D] [Div D]

variable (pb) in
/-- A run of a client whose operations all succeed: one sample of each kind per operation, taken
from the client's own readings and the time the server has reported for this operation. -/
def Bench.passed (ovf : ℤ → ℤ) (b : Bench) : ClientRun D :=
  let ks := List.range b.flags.opCount.toInt.toNat
  .ofLoop (
    { lat := ks.map fun k => latencySample (b.ops k).startNs (b.ops k).endNs
        (reportedUs b.flags.workload (b.server k))
      tput := ks.map fun k => throughputSample ovf b.flags (b.ops k).startNs (b.ops k).endNs
        (reportedUs b.flags.workload (b.server k))
      sent := ks.map (b.request pb) }, .ok ())

/-- A loop whose operations are all accepted, by induction on the operations left. -/
theorem clientLoop_exchanged {ovf : ℤ → ℤ} {flags : ClientFlags} {ops : ℕ → OpEnv}
    {req reply : ℕ → Msg} {us : ℕ → UInt64}
    (h : ∀ k, Exchanged pb flags (ops k) (req k) (reply k) (us k)) :
    ∀ (n k : ℕ) (st : ClientState D), clientLoop pb 0 ovf flags ops k n st
      = ({ lat := st.lat ++ (List.range' k n).map fun j =>
            latencySample (ops j).startNs (ops j).endNs (us j)
           tput := st.tput ++ (List.range' k n).map fun j =>
            throughputSample ovf flags (ops j).startNs (ops j).endNs (us j)
           sent := st.sent ++ (List.range' k n).map req }, .ok ()) := by
  intro n
  induction n with
  | zero =>
      intro k st
      simp [clientLoop]
  | succ n ih =>
      intro k st
      rw [clientLoop, clientOp_accepted (h k) st]
      simp only [ih, ClientState.add, List.range'_succ, List.map_cons, List.append_assoc,
        List.singleton_append]

theorem Bench.clientMain_passed (hpb : pb.Lawful) (h : b.flags.Servable) (ovf : ℤ → ℤ) :
    clientMain pb 0 ovf b.flags (b.localOps pb verbosity) = (b.passed pb ovf : ClientRun D) := by
  rw [clientMain, clientLoop_exchanged (Bench.exchanged hpb h)]
  simp only [Bench.passed, List.nil_append, List.range_eq_range']
  rfl

/-! ### Benchmarks over any network that delivers -/

section Network

variable {ι σ : Type} [DecidableEq ι]

/-- **Every benchmark passes.**  Over a network that delivers the calls of all clients, with the
server's responses as answers, client `i` gets to the end of `main` in every interleaving of its
steps with those of the others, in boundedly many moves, and has passed. -/
theorem benchmark_passes (hpb : pb.Lawful) (ovf : ℤ → ℤ) {b : ι → Bench}
    (hb : ∀ i, (b i).flags.Servable) {call : ι × ℕ → σ → σ → Prop}
    {answer : ι × ℕ → σ → Option (Except Fault Msg)} {net : σ} (bound : ι → ℕ)
    (hcall : ∀ c, Delivers call net c (bound c.1) (fun t => (answer c t).isSome)
      (fun t => answer c t = some (.ok ((b c.1).rsp pb c.2)))) (i : ι) :
    Delivers (Step (fun i => clientProgram pb 0 ovf (b i).flags (b i).ops) call answer)
      ⟨net, fun i => clientStart pb 0 (b i).flags (b i).ops⟩ i
      ((b i).flags.opCount.toInt.toNat * (bound i + 1))
      (fun s => (s.pos i).pending = none)
      (fun s => s.pos i = .exited ((b i).passed pb ovf : ClientRun D)) := by
  have hreply : ∀ k req, opRequest pb 0 (b i).flags ((b i).ops k) = .ok req →
      (b i).rcvFn pb 0 k req [] = .ok ((b i).rsp pb k) := by
    intro k req hreq
    have hrequest : (b i).request pb k = req := by rw [Bench.request, hreq]
    rw [← hrequest]
    exact Bench.rcvFn_request hpb (hb i) k
  have hlocal : (clientProgram pb 0 ovf (b i).flags (b i).ops).runLocal
      (fun k => .ok ((b i).rsp pb k)) (clientStart pb 0 (b i).flags (b i).ops : MainPc D)
      = .exited (clientMain pb 0 ovf (b i).flags ((b i).localOps pb 0)) :=
    clientProgram_runLocal hreply
  have hpassed : clientMain pb 0 ovf (b i).flags ((b i).localOps pb 0)
      = ((b i).passed pb ovf : ClientRun D) := Bench.clientMain_passed hpb (hb i) ovf
  refine (RemoteProgram.delivers hcall i).imp ?_ (fun _ => Iff.rfl) fun s hs => ?_
  · exact Nat.mul_le_mul_right _ (mainLoop_todo pb 0 (b i).flags (b i).ops 0 _ _)
  · rw [hs]
    exact hlocal.trans (congrArg MainPc.exited hpassed)

/-! ### gRPC and FlatBuffers -/

/-- How `sendReq` has ended, once it has. -/
def streamAnswer (c : ι × ℕ) (s : ι × ℕ → Session) : Option (Except Fault Msg) :=
  match (s c).client.pc with
  | .returned => some (.ok (s c).client.reply)
  | .threw what => some (.error (.exception what))
  | .crashed e => some (.error e)
  | _ => none

/-- The calls of all clients on one server process, over its transport. -/
def Bench.streamCalls (pb : Protobuf) (verbosity : ℕ) (b : ι → Bench) (t : StreamTransport)
    (l : ι → Links) (c : ι × ℕ) : CallSetup :=
  (l c.1).stream t ((b c.1).request pb c.2) ((b c.1).rcvFn pb verbosity c.2)

/-- The stream system delivers the answers of calls it can carry. -/
theorem stream_answers {x : ι × ℕ → CallSetup} {rsp : ι × ℕ → Msg}
    (hx : ∀ c, (x c).Answers (rsp c)) (c : ι × ℕ) :
    Delivers (SystemStep x) (fun _ => {}) c (2 * ((x c).request.length + (rsp c).length) + 9)
      (fun s => (streamAnswer c s).isSome) (fun s => streamAnswer c s = some (.ok (rsp c))) := by
  have hall := stream_delivers hx c
  refine ⟨hall.bounded, fun ls s hrun hnot => ?_, fun ls s hrun hdone => ?_⟩
  · refine hall.progress ls s hrun fun hreturned => hnot ?_
    rw [streamAnswer, hreturned]
    rfl
  · have hinv := stream_inv hx hrun c
    have hreturned : (s c).client.pc = .returned := by
      have hsound := hinv.sound
      unfold streamAnswer at hdone
      cases hpc : (s c).client.pc with
      | returned => rfl
      | threw what => simp [hpc, ClientPc.failed] at hsound
      | crashed e => simp [hpc, ClientPc.failed] at hsound
      | _ => simp [hpc] at hdone
    rw [streamAnswer, hreturned]
    exact congrArg (fun reply => some (Except.ok reply)) (hall.correct ls s hrun hreturned).2

omit [DecidableEq ι] in
/-- The transport can carry the call, and the server answers it. -/
theorem Bench.streamCalls_answers (hpb : pb.Lawful) {b : ι → Bench} (t : StreamTransport)
    {l : ι → Links} {c : ι × ℕ} (hserv : (b c.1).flags.Servable)
    (hto : ∀ u, 1 ≤ (l c.1).toServerWindow u) (hfrom : ∀ u, 1 ≤ (l c.1).toClientWindow u) :
    (Bench.streamCalls pb verbosity b t l c).Answers ((b c.1).rsp pb c.2) where
  toServer := hto _
  toClient := hfrom _
  returns := Bench.rcvFn_request hpb hserv c.2
  carries_request := fun buf hbuf =>
    StreamTransport.carries_of_ne_nil _ (Bench.request_ne_nil hpb hserv c.2 buf hbuf)
  carries_rsp := fun buf hbuf =>
    StreamTransport.carries_of_ne_nil _ (Bench.rsp_ne_nil hpb hserv c.2 buf hbuf)

/-- Over a network whose limit lets them through and whose connections hold, the calls of all
clients are answered as the server answers them on the spot. -/
theorem Bench.streamCalls_answered (hpb : pb.Lawful) {b : ι → Bench}
    (hb : ∀ i, (b i).flags.Servable) (t : StreamTransport) {net : Network (ι × ℕ)}
    (hlim : ∀ i, net.limit.Carries (b i).flags) (hhold : net.Holds) {l : ι → Links}
    (hto : ∀ i u, 1 ≤ (l i).toServerWindow u) (hfrom : ∀ i u, 1 ≤ (l i).toClientWindow u)
    (c : ι × ℕ) :
    Delivers (NetworkStep net (Bench.streamCalls pb verbosity b t l)) (fun _ => {}) c
      (4 * (b c.1).flags.blockCount.toInt.toNat + 13) (fun s => (streamAnswer c s).isSome)
      (fun s => streamAnswer c s = some (.ok ((b c.1).rsp pb c.2))) := by
  have hx : ∀ c, (Bench.streamCalls pb verbosity b t l c).Answers ((b c.1).rsp pb c.2) := fun c =>
    Bench.streamCalls_answers hpb t (hb c.1) (hto c.1) (hfrom c.1)
  have hanswers := NetworkStep.delivers (stream_answers hx c) hx hhold
    (fun c => Bench.request_taken hpb (hb c.1) (hlim c.1) c.2)
    fun c => Bench.rsp_taken hpb (hb c.1) (hlim c.1) c.2
  refine hanswers.imp ?_ (fun _ => Iff.rfl) fun _ hs => hs
  have hlen : ((b c.1).request pb c.2).length + ((b c.1).rsp pb c.2).length
      ≤ 2 * ((b c.1).flags.blockCount.toInt.toNat + 1) := Bench.length_le (hb c.1) c.2
  simp only [Bench.streamCalls, Links.stream]
  omega

/-- **Benchmarks over gRPC and FlatBuffers.**  Any number of clients, each with its own flags and
windows, on one server process, over connections that hold and with every message within the
transport's limit: in every interleaving, client `i` gets to the end of `main` in boundedly many
moves and has passed. -/
theorem benchmark_stream (hpb : pb.Lawful) (ovf : ℤ → ℤ) (b : ι → Bench)
    (hb : ∀ i, (b i).flags.Servable) (t : StreamTransport) (net : Network (ι × ℕ))
    (hlim : ∀ i, net.limit.Carries (b i).flags) (hhold : net.Holds) (l : ι → Links)
    (hto : ∀ i u, 1 ≤ (l i).toServerWindow u) (hfrom : ∀ i u, 1 ≤ (l i).toClientWindow u) (i : ι) :
    Delivers
      (Step (fun i => clientProgram pb 0 ovf (b i).flags (b i).ops)
        (NetworkStep net (Bench.streamCalls pb verbosity b t l)) streamAnswer)
      ⟨fun _ => {}, fun i => clientStart pb 0 (b i).flags (b i).ops⟩ i
      ((b i).flags.opCount.toInt.toNat * (4 * (b i).flags.blockCount.toInt.toNat + 14))
      (fun s => (s.pos i).pending = none)
      (fun s => s.pos i = .exited ((b i).passed pb ovf : ClientRun D)) :=
  benchmark_passes hpb ovf hb (fun i => 4 * (b i).flags.blockCount.toInt.toNat + 13)
    (Bench.streamCalls_answered hpb hb t hlim hhold hto hfrom) i

/-! ### Cap'n Proto -/

/-- How `promise.wait` has ended, once it has: it throws when the connection is gone. -/
def capnpAnswer (c : ι × ℕ) (s : CapnpState (ι × ℕ)) : Option (Except Fault Msg) :=
  if (s.conn c).stream = some .finished then some (.ok (s.conn c).reply)
  else if (s.conn c).connected = false then some (.error (.exception "Peer disconnected."))
  else none

/-- The calls of all clients on one server process. -/
def Bench.capnpCalls (pb : Protobuf) (verbosity : ℕ) (b : ι → Bench) (l : ι → Links)
    (c : ι × ℕ) : CapnpSetup :=
  (l c.1).capnp ((b c.1).request pb c.2) ((b c.1).rcvFn pb verbosity c.2)

/-- The Cap'n Proto system delivers the answers of calls whose receive function returns. -/
theorem capnp_answers {x : ι × ℕ → CapnpSetup} {rsp : ι × ℕ → Msg}
    (hrcv : ∀ c, (x c).rcvFn (x c).request [] = .ok (rsp c)) (c : ι × ℕ) :
    Delivers (CapnpStep x) {} c (3 * ((x c).request.length + (rsp c).length) + 8)
      (fun s => (capnpAnswer c s).isSome) (fun s => capnpAnswer c s = some (.ok (rsp c))) := by
  have hall := capnp_delivers hrcv c
  refine ⟨hall.bounded, fun ls s hrun hnot => ?_, fun ls s hrun hdone => ?_⟩
  · refine hall.progress ls s hrun fun hfinished => hnot ?_
    rw [capnpAnswer, if_pos hfinished]
    rfl
  · have hconn : ¬ (s.conn c).connected = false := by
      rw [show (s.conn c).connected = true from ((capnp_held hrcv hrun).2 c).2]
      exact Bool.noConfusion
    have hfinished : (s.conn c).stream = some .finished := by
      by_contra hnot
      rw [capnpAnswer, if_neg hnot, if_neg hconn] at hdone
      cases hdone
    rw [capnpAnswer, if_pos hfinished, (hall.correct ls s hrun hfinished).2]

/-- As over the streams, with any flow control. -/
theorem Bench.capnpCalls_answered (hpb : pb.Lawful) {b : ι → Bench}
    (hb : ∀ i, (b i).flags.Servable) {net : Network (ι × ℕ)}
    (hlim : ∀ i, net.limit.Carries (b i).flags) (hhold : net.Holds) (l : ι → Links) (c : ι × ℕ) :
    Delivers (CapnpNetworkStep net (Bench.capnpCalls pb verbosity b l)) {} c
      (6 * (b c.1).flags.blockCount.toInt.toNat + 14) (fun s => (capnpAnswer c s).isSome)
      (fun s => capnpAnswer c s = some (.ok ((b c.1).rsp pb c.2))) := by
  have hserved : ∀ c, (Bench.capnpCalls pb verbosity b l c).rcvFn
      (Bench.capnpCalls pb verbosity b l c).request [] = .ok ((b c.1).rsp pb c.2) := fun c =>
    Bench.rcvFn_request hpb (hb c.1) c.2
  have hanswers := CapnpNetworkStep.delivers (capnp_answers hserved c) hserved hhold
    ((hlim c.1).hdr.of_le (Nat.zero_le _))
    (fun c => Bench.request_taken hpb (hb c.1) (hlim c.1) c.2)
    fun c => Bench.rsp_taken hpb (hb c.1) (hlim c.1) c.2
  refine hanswers.imp ?_ (fun _ => Iff.rfl) fun _ hs => hs
  have hlen : ((b c.1).request pb c.2).length + ((b c.1).rsp pb c.2).length
      ≤ 2 * ((b c.1).flags.blockCount.toInt.toNat + 1) := Bench.length_le (hb c.1) c.2
  simp only [Bench.capnpCalls, Links.capnp]
  omega

/-- **Benchmarks over Cap'n Proto**, with any flow control. -/
theorem benchmark_capnp (hpb : pb.Lawful) (ovf : ℤ → ℤ) (b : ι → Bench)
    (hb : ∀ i, (b i).flags.Servable) (net : Network (ι × ℕ))
    (hlim : ∀ i, net.limit.Carries (b i).flags) (hhold : net.Holds) (l : ι → Links) (i : ι) :
    Delivers
      (Step (fun i => clientProgram pb 0 ovf (b i).flags (b i).ops)
        (CapnpNetworkStep net (Bench.capnpCalls pb verbosity b l)) capnpAnswer)
      ⟨{}, fun i => clientStart pb 0 (b i).flags (b i).ops⟩ i
      ((b i).flags.opCount.toInt.toNat * (6 * (b i).flags.blockCount.toInt.toNat + 15))
      (fun s => (s.pos i).pending = none)
      (fun s => s.pos i = .exited ((b i).passed pb ovf : ClientRun D)) :=
  benchmark_passes hpb ovf hb (fun i => 6 * (b i).flags.blockCount.toInt.toNat + 14)
    (Bench.capnpCalls_answered hpb hb hlim hhold l) i

/-! ### Two clients -/

/-- An echo client of two operations beside a read client of one. -/
def twoBenches (i : Bool) : Bench where
  flags := if i then ⟨.echo, 3, 2, 2⟩ else ⟨.read, 4096, 16, 1⟩
  ops := fun k => ⟨fun i j => UInt8.ofNat (i + j + k), 0, 50000, fun _ _ => 0⟩
  server := fun k => ⟨fun i j => UInt8.ofNat (i * j + k), 1000, 43000⟩

theorem twoBenches_servable (i : Bool) : (twoBenches i).flags.Servable := by
  cases i
  · exact ⟨by decide, by decide, by decide, by decide⟩
  · exact ⟨by decide, by decide, by decide, by decide⟩

theorem twoBenches_carried {lim : MessageLimit} (hlim : lim.Takes 4102) (i : Bool) :
    lim.Carries (twoBenches i).flags := by
  cases i
  · exact ⟨hlim.of_le (by decide), hlim.of_le (by decide)⟩
  · exact ⟨hlim.of_le (by decide), hlim.of_le (by decide)⟩

theorem benchmark_stream_two :
    Delivers
      (Step (fun i => clientProgram wireProtobuf 0 id (twoBenches i).flags (twoBenches i).ops)
        (NetworkStep ⟨.grpc, fun _ => False⟩
          (Bench.streamCalls wireProtobuf 5 twoBenches .grpc fun _ => narrowLinks)) streamAnswer)
      ⟨fun _ => {}, fun i => clientStart wireProtobuf 0 (twoBenches i).flags (twoBenches i).ops⟩
      true (2 * (4 * 2 + 14)) (fun s => (s.pos true).pending = none)
      (fun s => s.pos true
        = .exited ((twoBenches true).passed wireProtobuf id : ClientRun ℚ)) :=
  benchmark_stream wireProtobuf_lawful id twoBenches twoBenches_servable .grpc _
    (twoBenches_carried (by decide)) (fun _ => id) (fun _ => narrowLinks) (fun _ _ => le_rfl)
    (fun _ _ => le_rfl) true

theorem benchmark_capnp_two :
    Delivers
      (Step (fun i => clientProgram wireProtobuf 0 id (twoBenches i).flags (twoBenches i).ops)
        (CapnpNetworkStep ⟨.capnp, fun _ => False⟩
          (Bench.capnpCalls wireProtobuf 5 twoBenches fun _ => narrowLinks)) capnpAnswer)
      ⟨{}, fun i => clientStart wireProtobuf 0 (twoBenches i).flags (twoBenches i).ops⟩
      true (2 * (6 * 2 + 15)) (fun s => (s.pos true).pending = none)
      (fun s => s.pos true
        = .exited ((twoBenches true).passed wireProtobuf id : ClientRun ℚ)) :=
  benchmark_capnp wireProtobuf_lawful id twoBenches twoBenches_servable _
    (twoBenches_carried (by decide)) (fun _ => id) (fun _ => narrowLinks) true

end Network

end Bench

end RpcTransport

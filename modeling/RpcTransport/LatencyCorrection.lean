import RpcTransport.FlagBounds
import RpcTransport.Lib.Clock
import RpcTransport.Lib.Transition
import Mathlib.Tactic.NormNum
import Mathlib.Tactic.Positivity
import Mathlib.Tactic.Ring

/-!
# The correction of the measured time

`main` of the client takes two readings of its clock around `sendReq`; the read and the echo creator
of the server take two readings of theirs around their counted work and report the difference in
whole microseconds.  The client takes that number off the time it measured.

The two processes have a clock each, with origins of their own and the same rate.  `ExchangeStep` is
what they do in one operation, with arbitrary delays in between: a party takes a reading only when
the program gets there, and a message is received only after it has been sent.

* `Stage` — the stages of an exchange, each with what the readings taken so far satisfy: the counted
  interval lies inside the measured one;
* `Stage.step` — every step leads from one stage to another;
* `exchange_completes` — for each workload a served exchange gets to its end;
* `latency_correction_sound` — the corrected time is never negative, never more than the measured
  time, and off by less than a microsecond.
-/

namespace RpcTransport

open Clocks Transition

/-! ### One exchange -/

/-- The two processes of an exchange: their clocks, the client's flags, and the random bytes either
draws. -/
structure ExchangeSetup (T : Type) [LE T] where
  pb : Protobuf
  flags : ClientFlags
  rnd : Random
  serverRnd : Random
  verbosity : ℕ
  serverVerbosity : ℕ
  clientClock : Clock T
  serverClock : Clock T

/-- Where the client is in an iteration of its loop, with the readings it has taken. -/
inductive ClientAt
  | filling
  | started (req : Msg) (startNs : ℤ)
  | sending (startNs : ℤ)
  | replied (startNs : ℤ) (reply : Msg)
  | ended (startNs endNs : ℤ) (reply : Msg)

/-- Where the server is in a call of `ServerRcvFn`; after its reply, the time it counted. -/
inductive ServerAt
  | idle
  | received (req : Msg)
  | counting (req : Msg) (startNs : ℤ)
  | counted (req : Msg) (startNs endNs : ℤ)
  | replied (countedNs : ℤ)

/-- Both processes and the messages between them, at the instant `now`. -/
structure Exchange (T : Type) where
  now : T
  client : ClientAt
  server : ServerAt
  toServer : Option Msg
  toClient : Option Msg

inductive ExchangeEvent
  | wait | clientStart | sendReq | serverReceive | serverStart | serverEnd | serverReply
  | clientReceive | clientEnd

/-- `ServerRcvFn` hands `req` to a creator that reads the clock: the read or the echo creator. -/
def TakesTime (pb : Protobuf) (req : Msg) : Prop :=
  ∃ w h, HasReqHdr pb req w h ∧ w ≠ .write

variable {T : Type} [LE T]

def Exchange.init (t₀ : T) : Exchange T := ⟨t₀, .filling, .idle, none, none⟩

/-- `fill` builds the request `req`. -/
def ExchangeSetup.Builds (x : ExchangeSetup T) (req : Msg) : Prop :=
  (reqFill x.pb x.verbosity x.flags.workload x.rnd x.flags.blockSize x.flags.blockCount []).val
    = .ok req

/-- `ServerRcvFn` answers `req` with `rsp` when its two readings are `startNs` and `endNs`. -/
def ExchangeSetup.Serves (x : ExchangeSetup T) (startNs endNs : ℤ) (req rsp : Msg) : Prop :=
  (serverRcvFn x.pb x.serverVerbosity ⟨x.serverRnd, startNs, endNs⟩ req []).val = .ok rsp

/-- The steps of an exchange.  All time passes in `wait`. -/
inductive ExchangeStep (x : ExchangeSetup T) : ExchangeEvent → Exchange T → Exchange T → Prop
  | wait {s : Exchange T} {t : T} (h : s.now ≤ t) :
      ExchangeStep x .wait s { s with now := t }
  | clientStart {s : Exchange T} {req : Msg} (h : s.client = .filling) (hreq : x.Builds req) :
      ExchangeStep x .clientStart s
        { s with client := .started req (x.clientClock.read s.now) }
  | sendReq {s : Exchange T} {req : Msg} {startNs : ℤ} (h : s.client = .started req startNs) :
      ExchangeStep x .sendReq s { s with client := .sending startNs, toServer := some req }
  | serverReceive {s : Exchange T} {req : Msg} (h : s.server = .idle)
      (hreq : s.toServer = some req) :
      ExchangeStep x .serverReceive s { s with server := .received req, toServer := none }
  | serverStart {s : Exchange T} {req : Msg} (h : s.server = .received req)
      (htime : TakesTime x.pb req) :
      ExchangeStep x .serverStart s
        { s with server := .counting req (x.serverClock.read s.now) }
  | serverEnd {s : Exchange T} {req : Msg} {startNs : ℤ} (h : s.server = .counting req startNs) :
      ExchangeStep x .serverEnd s
        { s with server := .counted req startNs (x.serverClock.read s.now) }
  | serverReply {s : Exchange T} {req rsp : Msg} {startNs endNs : ℤ}
      (h : s.server = .counted req startNs endNs)
      (hrsp : x.Serves startNs endNs req rsp) :
      ExchangeStep x .serverReply s
        { s with server := .replied (endNs - startNs), toClient := some rsp }
  /-- the write creator takes no reading: whatever stands in the environment is not used -/
  | serverReplyUncounted {s : Exchange T} {req rsp : Msg} {startNs endNs : ℤ}
      (h : s.server = .received req) (htime : ¬ TakesTime x.pb req)
      (hrsp : x.Serves startNs endNs req rsp) :
      ExchangeStep x .serverReply s { s with server := .replied 0, toClient := some rsp }
  | clientReceive {s : Exchange T} {reply : Msg} {startNs : ℤ} (h : s.client = .sending startNs)
      (hreply : s.toClient = some reply) :
      ExchangeStep x .clientReceive s
        { s with client := .replied startNs reply, toClient := none }
  | clientEnd {s : Exchange T} {reply : Msg} {startNs : ℤ} (h : s.client = .replied startNs reply) :
      ExchangeStep x .clientEnd s
        { s with client := .ended startNs (x.clientClock.read s.now) reply }

/-! ### The time in the reply -/

variable {pb : Protobuf}

/-- A request of the client is empty, when the count is negative, or begins with its header. -/
theorem reqFill_cases {verbosity : ℕ} {w : Workload} {rnd : Random} {blockSize blockCount : Int32}
    {req : Msg} (h : (reqFill pb verbosity w rnd blockSize blockCount []).val = .ok req) :
    req = [] ∨ ∃ rest, req = pb.ser (.reqHdr w blockCount blockSize) :: rest := by
  rw [reqFill_val] at h
  split at h
  · rename_i hw
    rw [hw]
    exact .inr ⟨[], (Except.ok.inj h).symm⟩
  split at h
  · cases h
  split at h
  · exact .inl (Except.ok.inj h).symm
  split at h
  · cases h
  · exact .inr ⟨_, (Except.ok.inj h).symm⟩

theorem TakesTime.ne_nil {req : Msg} (h : TakesTime pb req) : req ≠ [] := by
  obtain ⟨w, hdr, ⟨first, rest, _, rfl, _⟩, _⟩ := h
  exact List.cons_ne_nil first rest

theorem served_ne_nil {verbosity : ℕ} {env : ServerEnv} {req rsp : Msg}
    (h : (serverRcvFn pb verbosity env req []).val = .ok rsp) : req ≠ [] := by
  rintro rfl
  rw [serverRcvFn_empty] at h
  cases h

/-- Of the three kinds of request, only the write is answered without a reading of the clock. -/
theorem takesTime_reqHdr_iff (hpb : pb.Lawful) (w : Workload) (blockCount blockSize : Int32)
    (rest : Msg) :
    TakesTime pb (pb.ser (.reqHdr w blockCount blockSize) :: rest) ↔ w ≠ .write := by
  have hdec := (hpb.decodes_reqHdr w blockCount blockSize).par_eq
  have hpar : ∃ hdr h, (pb.par (pb.ser (.reqHdr w blockCount blockSize))).hdr? = some hdr ∧
      hdr.hdr = .req w h := ⟨_, _, by rw [hdec]; rfl, rfl⟩
  obtain ⟨hdr, h, hpar, hkind⟩ := hpar
  constructor
  · intro htime
    obtain ⟨w', h', hhdr, hw'⟩ := htime
    rw [hasReqHdr_cons_iff hpar, hkind] at hhdr
    cases hhdr
    exact hw'
  · intro hw
    exact ⟨w, h, (hasReqHdr_cons_iff hpar).mpr hkind, hw⟩

/-- **What the client reads in a reply to its own request** is what the creator of its workload
reports, whether the reply is complete or not. -/
theorem remoteTime_served (hpb : pb.Lawful) {verbosity serverVerbosity : ℕ} {w : Workload}
    {rnd : Random} {blockSize blockCount : Int32} {req rsp : Msg} {env : ServerEnv} {us : UInt64}
    (hreq : (reqFill pb verbosity w rnd blockSize blockCount []).val = .ok req)
    (hrsp : (serverRcvFn pb serverVerbosity env req []).val = .ok rsp)
    (hus : (getRemoteProcessTimeUs pb rsp).val = .ok us) : us = reportedUs w env := by
  have hreads : ∀ rest, rsp = pb.ser (.rspHdr w (reportedUs w env)) :: rest →
      us = reportedUs w env := by
    intro rest hrest
    rw [hrest, getRemoteProcessTimeUs_rspHdr hpb] at hus
    exact (Except.ok.inj hus).symm
  rcases reqFill_cases hreq with rfl | ⟨rest, rfl⟩
  · rw [serverRcvFn_empty] at hrsp
    cases hrsp
  have hdec := (hpb.decodes_reqHdr w blockCount blockSize).par_eq
  rw [serverRcvFn_reqHdr env (by rw [hdec]; rfl) rfl] at hrsp
  cases w with
  | write => exact hreads _ (Except.ok.inj hrsp).symm
  | echo => exact hreads _ (Except.ok.inj hrsp).symm
  | read =>
      change (ReadRspPayloadCreator.fill pb serverVerbosity env blockSize blockCount []).val
        = .ok rsp at hrsp
      rw [ReadRspPayloadCreator.fill_val] at hrsp
      split at hrsp
      · cases hrsp
      split at hrsp
      · cases hrsp
      split at hrsp
      · -- a negative count: an empty reply, in which the client finds no time
        cases Except.ok.inj hrsp
        cases hus
      · exact hreads _ (Except.ok.inj hrsp).symm

/-- Below `2^63` the microseconds come back from the header as they went in. -/
theorem remoteTime_ofInt {n : ℤ} (hnonneg : 0 ≤ n) (hlt : n < 2 ^ 63) :
    remoteTime (UInt64.ofInt n) = n := by
  show (BitVec.ofNat 64 (n % 2 ^ 64).toNat).toInt = n
  rw [BitVec.toInt_ofNat', Int.toNat_of_nonneg (by omega), Int.emod_eq_of_lt hnonneg (by omega)]
  exact Int.bmod_eq_of_le (by omega) (by omega)

/-! ### The stages of an exchange -/

/-- The reply of a server that counted `countedNs` reports that time in whole microseconds; the
write creator counts nothing. -/
structure Reports (x : ExchangeSetup T) (countedNs : ℤ) (rsp : Msg) : Prop where
  us_eq : ∀ us, (getRemoteProcessTimeUs x.pb rsp).val = .ok us →
    us = UInt64.ofInt (countedNs.tdiv 1000)
  write : x.flags.workload = .write → countedNs = 0

/-- **The stages of an exchange.**  From the client's first reading on, the interval the server
counts lies inside the one the client measures. -/
inductive Stage (x : ExchangeSetup T) : Exchange T → Prop
  | filling {t : T} : Stage x ⟨t, .filling, .idle, none, none⟩
  | started {t : T} {req : Msg} {startNs : ℤ} (hreq : x.Builds req)
      (h : startNs ≤ x.clientClock.read t) :
      Stage x ⟨t, .started req startNs, .idle, none, none⟩
  | sent {t : T} {req : Msg} {startNs : ℤ} (hreq : x.Builds req)
      (h : startNs ≤ x.clientClock.read t) :
      Stage x ⟨t, .sending startNs, .idle, some req, none⟩
  | received {t : T} {req : Msg} {startNs : ℤ} (hreq : x.Builds req)
      (h : startNs ≤ x.clientClock.read t) :
      Stage x ⟨t, .sending startNs, .received req, none, none⟩
  | counting {t : T} {req : Msg} {startNs b : ℤ} (hreq : x.Builds req)
      (htime : x.flags.workload ≠ .write)
      (h : Fits x.clientClock x.serverClock startNs b t) :
      Stage x ⟨t, .sending startNs, .counting req b, none, none⟩
  | counted {t : T} {req : Msg} {startNs b e : ℤ} (hreq : x.Builds req)
      (htime : x.flags.workload ≠ .write) (hnonneg : 0 ≤ e - b)
      (h : e - b ≤ x.clientClock.read t - startNs) :
      Stage x ⟨t, .sending startNs, .counted req b e, none, none⟩
  | replied {t : T} {rsp : Msg} {startNs n : ℤ} (hrsp : Reports x n rsp) (hnonneg : 0 ≤ n)
      (h : n ≤ x.clientClock.read t - startNs) :
      Stage x ⟨t, .sending startNs, .replied n, none, some rsp⟩
  | delivered {t : T} {rsp : Msg} {startNs n : ℤ} (hrsp : Reports x n rsp) (hnonneg : 0 ≤ n)
      (h : n ≤ x.clientClock.read t - startNs) :
      Stage x ⟨t, .replied startNs rsp, .replied n, none, none⟩
  | ended {t : T} {rsp : Msg} {startNs endNs n : ℤ} (hrsp : Reports x n rsp) (hnonneg : 0 ≤ n)
      (h : n ≤ endNs - startNs) :
      Stage x ⟨t, .ended startNs endNs rsp, .replied n, none, none⟩

variable {x : ExchangeSetup T} {s s' : Exchange T}

/-- In a request `x` builds and the server answers, the header says whether time is counted. -/
theorem ExchangeSetup.Builds.takesTime_iff (hpb : x.pb.Lawful) {req : Msg} (hreq : x.Builds req)
    (hne : req ≠ []) : TakesTime x.pb req ↔ x.flags.workload ≠ .write := by
  rcases reqFill_cases hreq with rfl | ⟨rest, rfl⟩
  · exact absurd rfl hne
  · exact takesTime_reqHdr_iff hpb _ _ _ rest

theorem ExchangeSetup.Builds.reports (hpb : x.pb.Lawful) {req rsp : Msg} (hreq : x.Builds req)
    {b e : ℤ} (htime : x.flags.workload ≠ .write) (hrsp : x.Serves b e req rsp) :
    Reports x (e - b) rsp where
  us_eq := by
    intro us hus
    rw [remoteTime_served hpb hreq hrsp hus]
    cases hw : x.flags.workload with
    | write => exact absurd hw htime
    | read => rfl
    | echo => rfl
  write := fun hw => absurd hw htime

theorem ExchangeSetup.Builds.reports_write (hpb : x.pb.Lawful) {req rsp : Msg}
    (hreq : x.Builds req) {b e : ℤ} (htime : x.flags.workload = .write)
    (hrsp : x.Serves b e req rsp) : Reports x 0 rsp where
  us_eq := by
    intro us hus
    rw [remoteTime_served hpb hreq hrsp hus, htime]
    rfl
  write := fun _ => rfl

/-- Delays keep the stage. -/
theorem Stage.wait (hrate : SameRate x.clientClock x.serverClock) (h : Stage x s) {t : T}
    (ht : s.now ≤ t) : Stage x { s with now := t } := by
  cases h with
  | filling => exact .filling
  | started hreq h => exact .started hreq (h.trans (x.clientClock.mono ht))
  | sent hreq h => exact .sent hreq (h.trans (x.clientClock.mono ht))
  | received hreq h => exact .received hreq (h.trans (x.clientClock.mono ht))
  | counting hreq htime h => exact .counting hreq htime (h.later hrate ht)
  | counted hreq htime hnonneg h =>
      exact .counted hreq htime hnonneg (Clock.le_later h ht)
  | replied hrsp hnonneg h => exact .replied hrsp hnonneg (Clock.le_later h ht)
  | delivered hrsp hnonneg h => exact .delivered hrsp hnonneg (Clock.le_later h ht)
  | ended hrsp hnonneg h => exact .ended hrsp hnonneg h

/-- **Every step leads from one stage to another.** -/
theorem Stage.step (hpb : x.pb.Lawful) (hrate : SameRate x.clientClock x.serverClock)
    {e : ExchangeEvent} (h : Stage x s) (hstep : ExchangeStep x e s s') : Stage x s' := by
  cases hstep with
  | wait ht => exact h.wait hrate ht
  | clientStart hclient hreq =>
      cases h with
      | filling => exact .started hreq le_rfl
      | _ => cases hclient
  | sendReq hclient =>
      cases h with
      | started hreq h =>
          cases hclient
          exact .sent hreq h
      | _ => cases hclient
  | serverReceive hserver hmsg =>
      cases h with
      | sent hreq h =>
          cases hmsg
          exact .received hreq h
      | _ => cases hmsg
  | serverStart hserver htime =>
      cases h with
      | received hreq h =>
          cases hserver
          exact .counting hreq ((hreq.takesTime_iff hpb htime.ne_nil).mp htime) (.start _ h)
      | _ => cases hserver
  | serverEnd hserver =>
      cases h with
      | counting hreq htime h =>
          cases hserver
          exact .counted hreq htime h.nonneg h.le
      | _ => cases hserver
  | serverReply hserver hrsp =>
      cases h with
      | counted hreq htime hnonneg h =>
          cases hserver
          exact .replied (hreq.reports hpb htime hrsp) hnonneg h
      | _ => cases hserver
  | serverReplyUncounted hserver htime hrsp =>
      cases h with
      | received hreq h =>
          cases hserver
          have hkind := hreq.takesTime_iff hpb (served_ne_nil hrsp)
          have hwrite := not_not.mp (mt hkind.mpr htime)
          exact .replied (hreq.reports_write hpb hwrite hrsp) le_rfl (sub_nonneg.mpr h)
      | _ => cases hserver
  | clientReceive hclient hmsg =>
      cases h with
      | replied hrsp hnonneg h =>
          cases hclient
          cases hmsg
          exact .delivered hrsp hnonneg h
      | _ => cases hmsg
  | clientEnd hclient =>
      cases h with
      | delivered hrsp hnonneg h =>
          cases hclient
          exact .ended hrsp hnonneg h
      | _ => cases hclient

/-- The stage at the end of a run. -/
theorem stage_of_run (hpb : x.pb.Lawful) (hrate : SameRate x.clientClock x.serverClock) {t₀ : T}
    {ls : List ExchangeEvent} (hrun : Run (ExchangeStep x) (Exchange.init t₀) ls s) : Stage x s :=
  hrun.invariant .filling fun _ _ _ h hstep => h.step hpb hrate hstep

/-- **An exchange that is served gets to its end**, for each workload: the client finds a time in
the reply. -/
theorem exchange_completes (hpb : x.pb.Lawful) (hsize : 0 ≤ x.flags.blockSize.toInt)
    (hfits : dataPayloadSize x.flags.blockSize.toInt.toNat ≤ maxInt)
    (hcount : 0 ≤ x.flags.blockCount.toInt) (hmax : x.flags.blockCount.toInt ≤ 2 ^ 31 - 2)
    (t₀ : T) :
    ∃ ls s startNs endNs reply us, Run (ExchangeStep x) (Exchange.init t₀) ls s ∧
      s.client = .ended startNs endNs reply ∧
      (getRemoteProcessTimeUs x.pb reply).val = .ok us := by
  have hreq : x.Builds (reqBufs x.pb x.flags.workload x.rnd x.flags.blockSize x.flags.blockCount) :=
    reqFill_ok x.flags.workload x.rnd hsize hcount hmax
  have hrsp : ∀ b e, x.Serves b e
      (reqBufs x.pb x.flags.workload x.rnd x.flags.blockSize x.flags.blockCount)
      (rspBufs x.pb x.flags.workload ⟨x.serverRnd, b, e⟩ x.flags.blockSize x.flags.blockCount
        (reqBufs x.pb x.flags.workload x.rnd x.flags.blockSize x.flags.blockCount)) :=
    fun b e => serverRcvFn_reqBufs hpb x.flags.workload x.rnd _ hsize hfits hcount hmax
  have hkind := hreq.takesTime_iff hpb (List.cons_ne_nil _ _)
  have hinit : Run (ExchangeStep x) (Exchange.init t₀) [] (Exchange.init t₀) := .refl
  have hsent := (hinit.tail (.clientStart rfl hreq)).tail (.sendReq rfl)
  have hreceived := hsent.tail (.serverReceive rfl rfl)
  by_cases hw : x.flags.workload = .write
  · -- the write creator replies at once
    have htime := mt hkind.mp (not_not.mpr hw)
    have hreplied := hreceived.tail (.serverReplyUncounted rfl htime (hrsp 0 0))
    have hended := (hreplied.tail (.clientReceive rfl rfl)).tail (.clientEnd rfl)
    exact ⟨_, _, _, _, _, _, hended, rfl, getRemoteProcessTimeUs_rspHdr hpb _ _ _⟩
  · have hcounted := (hreceived.tail (.serverStart rfl (hkind.mpr hw))).tail (.serverEnd rfl)
    have hreplied := hcounted.tail (.serverReply rfl (hrsp _ _))
    have hended := (hreplied.tail (.clientReceive rfl rfl)).tail (.clientEnd rfl)
    exact ⟨_, _, _, _, _, _, hended, rfl, getRemoteProcessTimeUs_rspHdr hpb _ _ _⟩

/-! ### The corrected time -/

/-- The samples of an iteration are computed from its own two readings and from the time in the
reply, before the reply is validated. -/
theorem clientOp_records {D : Type} [IntCast D] [Sub D] [Div D] {verbosity : ℕ}
    {ovf : ℤ → ℤ} {flags : ClientFlags} {op : OpEnv} {req reply : Msg} {us : UInt64}
    (hreq : (reqFill pb verbosity flags.workload op.rnd flags.blockSize flags.blockCount []).val
      = .ok req) (hne : req ≠ []) (hsend : op.sendReq req = .ok reply)
    (hus : (getRemoteProcessTimeUs pb reply).val = .ok us) (st : ClientState D) :
    (clientOp pb verbosity ovf flags op st).1 = st.add ovf flags op req us := by
  obtain ⟨first, rest, rfl⟩ := List.exists_cons_of_ne_nil hne
  have hlog : (vlog verbosity LogLevel.stringMem
      (do let buf ← vecAt (first :: rest) 0; bytesToHex buf 1)).val = .ok () := by
    have hfirst : (first :: rest)[0]? = some first := rfl
    exact vlog_val ((Checked.val_bind_ok (vecAt_val hfirst) _).trans (bytesToHex_val first 1))
  rw [clientOp, hreq]
  simp only [hlog, hsend, hus]
  split <;> rfl

section Corrected

variable {D : Type} [Field D] [LinearOrder D] [IsStrictOrderedRing D]

/-- The corrected time in nanoseconds. -/
def correctedNs (startNs endNs : ℤ) (us : UInt64) : ℤ := endNs - startNs - 1000 * remoteTime us

theorem deltaSeconds_eq (startNs endNs : ℤ) (us : UInt64) :
    (deltaSeconds startNs endNs us : D) = (correctedNs startNs endNs us : D) / 10 ^ 9 := by
  rw [deltaSeconds, correctedNs]
  push_cast
  ring

theorem latencySample_eq (startNs endNs : ℤ) (us : UInt64) :
    (latencySample startNs endNs us : D) = (correctedNs startNs endNs us : D) / 10 ^ 6 := by
  rw [latencySample, correctedNs]
  push_cast
  ring

theorem correctedNs_corrects {startNs endNs n : ℤ} (hnonneg : 0 ≤ n) (hle : n ≤ endNs - startNs)
    (hshort : endNs - startNs < 2 ^ 63) :
    Corrects (correctedNs startNs endNs (UInt64.ofInt (n.tdiv 1000))) (endNs - startNs) n 1000 := by
  have hus : 0 ≤ n.tdiv 1000 := Int.tdiv_nonneg hnonneg (by decide)
  have hlt : n.tdiv 1000 < 2 ^ 63 := by
    have hself := Int.tdiv_le_self 1000 hnonneg
    omega
  rw [correctedNs, remoteTime_ofInt hus hlt]
  exact corrects_truncated hnonneg hle (by decide)

/-- **The correction is sound.**  In every run of an exchange, with clocks of the same rate and a
measured time below `2^63` nanoseconds, when the client has taken its second reading and finds the
time `us` in the reply, the seconds `delta` and the milliseconds `deltaMs` are the measured time
less the time the server counted, never below it and above it by less than a microsecond; they lie
between zero and the measured time.  For a write the server counted nothing.  So the throughput,
which is divided by `delta`, has the sign of the number of bits. -/
theorem latency_correction_sound (hpb : x.pb.Lawful)
    (hrate : SameRate x.clientClock x.serverClock) {t₀ : T} {ls : List ExchangeEvent}
    (hrun : Run (ExchangeStep x) (Exchange.init t₀) ls s) {startNs endNs : ℤ} {reply : Msg}
    (hended : s.client = .ended startNs endNs reply) (hshort : endNs - startNs < 2 ^ 63)
    {us : UInt64} (hus : (getRemoteProcessTimeUs x.pb reply).val = .ok us) :
    ∃ countedNs, s.server = .replied countedNs ∧
      (x.flags.workload = .write → countedNs = 0) ∧
      Corrects (deltaSeconds startNs endNs us : D) (((endNs - startNs : ℤ) : D) / 10 ^ 9)
        ((countedNs : D) / 10 ^ 9) (1 / 10 ^ 6) ∧
      Corrects (latencySample startNs endNs us : D) (((endNs - startNs : ℤ) : D) / 10 ^ 6)
        ((countedNs : D) / 10 ^ 6) (1 / 10 ^ 3) ∧
      ∀ ovf, 0 ≤ bitsMoved ovf x.flags →
        0 ≤ (throughputSample ovf x.flags startNs endNs us : D) := by
  have hstage := stage_of_run hpb hrate hrun
  cases hstage with
  | @ended t rsp a e n hrsp hnonneg h =>
      cases hended
      have hns := correctedNs_corrects hnonneg h hshort
      rw [← hrsp.us_eq us hus] at hns
      have hseconds := hns.cast_div (k := (10 ^ 9 : D)) (by positivity)
      have hmillis := hns.cast_div (k := (10 ^ 6 : D)) (by positivity)
      rw [← deltaSeconds_eq, show ((1000 : ℤ) : D) / 10 ^ 9 = 1 / 10 ^ 6 by norm_num] at hseconds
      rw [← latencySample_eq, show ((1000 : ℤ) : D) / 10 ^ 6 = 1 / 10 ^ 3 by norm_num] at hmillis
      refine ⟨n, rfl, hrsp.write, hseconds, hmillis, fun ovf hbits => ?_⟩
      rw [throughputSample_eq]
      have hbits' : (0 : D) ≤ (bitsMoved ovf x.flags : D) := Int.cast_nonneg hbits
      exact div_nonneg (div_nonneg hbits' hseconds.nonneg) (by norm_num)
  | _ => cases hended

/-- A read of two blocks of three bytes, with a server whose clock is a millisecond ahead. -/
def readSetup : ExchangeSetup ℕ where
  pb := wireProtobuf
  flags := ⟨.read, 3, 2, 1⟩
  rnd := fun _ _ => 0
  serverRnd := fun _ _ => 7
  verbosity := 0
  serverVerbosity := 5
  clientClock := ⟨fun t => (t : ℤ), fun h => Int.ofNat_le.mpr h⟩
  serverClock := Clock.shift ⟨fun t => (t : ℤ), fun h => Int.ofNat_le.mpr h⟩ 1000000

/-- The server counts from instant 10 to instant 1509. -/
def readEnv : ServerEnv :=
  ⟨readSetup.serverRnd, readSetup.serverClock.read 10, readSetup.serverClock.read 1509⟩

def readReply : Msg :=
  rspBufs wireProtobuf .read readEnv 3 2 (reqBufs wireProtobuf .read (fun _ _ => 0) 3 2)

theorem readRun :
    Run (ExchangeStep readSetup) (Exchange.init 0)
      [.clientEnd, .clientReceive, .wait, .serverReply, .serverEnd, .wait, .serverStart,
        .serverReceive, .wait, .sendReq, .clientStart]
      ⟨2000, .ended (readSetup.clientClock.read 0) (readSetup.clientClock.read 2000) readReply,
        .replied (readEnv.endNs - readEnv.startNs), none, none⟩ := by
  have hreq : readSetup.Builds (reqBufs wireProtobuf .read (fun _ _ => 0) 3 2) :=
    reqFill_ok .read _ (by decide) (by decide) (by decide)
  have htime : TakesTime wireProtobuf (reqBufs wireProtobuf .read (fun _ _ => 0) 3 2) :=
    (takesTime_reqHdr_iff wireProtobuf_lawful .read 2 3 []).mpr (by decide)
  have hrsp : (serverRcvFn wireProtobuf 5 readEnv
      (reqBufs wireProtobuf .read (fun _ _ => 0) 3 2) []).val = .ok readReply :=
    serverRcvFn_reqBufs wireProtobuf_lawful .read _ _ (by decide) (by decide) (by decide)
      (by decide)
  have hinit : Run (ExchangeStep readSetup) (Exchange.init 0) [] (Exchange.init 0) := .refl
  have hsent := (hinit.tail (.clientStart rfl hreq)).tail (.sendReq rfl)
  have harrived := (hsent.tail (.wait (show 0 ≤ 10 by omega))).tail (.serverReceive rfl rfl)
  have hcounting := (harrived.tail (.serverStart rfl htime)).tail
    (.wait (show 10 ≤ 1509 by omega))
  have hanswered := (hcounting.tail (.serverEnd rfl)).tail (.serverReply rfl hrsp)
  have hdelivered := (hanswered.tail (.wait (show 1509 ≤ 2000 by omega))).tail
    (.clientReceive rfl rfl)
  exact hdelivered.tail (.clientEnd rfl)

/-- Of 1499 nanoseconds a microsecond is taken off. -/
theorem latency_correction_sound_read :
    Corrects (deltaSeconds 0 2000 1 : ℚ) (2000 / 10 ^ 9) (1499 / 10 ^ 9) (1 / 10 ^ 6) := by
  have hus : (getRemoteProcessTimeUs wireProtobuf readReply).val = .ok 1 :=
    getRemoteProcessTimeUs_rspHdr wireProtobuf_lawful .read 1 _
  have hstart : readSetup.clientClock.read 0 = 0 := rfl
  have hend : readSetup.clientClock.read 2000 = 2000 := rfl
  have hcounted : readEnv.endNs - readEnv.startNs = 1499 := rfl
  have hrun := readRun
  rw [hstart, hend, hcounted] at hrun
  obtain ⟨n, hn, _, hseconds, _⟩ := latency_correction_sound (D := ℚ) wireProtobuf_lawful
    (sameRate_shift _ _) hrun rfl (by decide) hus
  cases hn
  simpa using hseconds

end Corrected

end RpcTransport

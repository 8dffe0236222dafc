import RpcTransport.Client

/-!
# Runs of the client's main loop

One operation either leaves one request and one sample of each kind behind and goes on, or ends the
run.  `Recorded` is the invariant of the loop: after `k` operations the accumulators hold `k`
samples, the `i`-th of them taken from the exchange of operation `i` alone.  From the step lemmas
`clientOp_accepted` and `clientOp_failed`, `clientLoop_spec` follows by induction on the operations
left, and from it `clientMain_passed_iff`, the meaning of the line `Test passed`.
-/

namespace RpcTransport

variable {pb : Protobuf} {flags : ClientFlags}

/-- Operation `op` sent `req`, got `reply`, took the time `us` out of its header and accepted it. -/
structure Exchanged (pb : Protobuf) (flags : ClientFlags) (op : OpEnv) (req reply : Msg)
    (us : UInt64) : Prop where
  fill : (reqFill pb 0 flags.workload op.rnd flags.blockSize flags.blockCount []).val = .ok req
  send : op.sendReq req = .ok reply
  header : ∃ w, HasRspHdr pb reply w us
  valid : (replyIsValid 0 flags.workload op.after req reply).val = .ok true

/-- The exchange of `op` returned a reply with a response header that the validator accepts. -/
def OpAccepted (pb : Protobuf) (flags : ClientFlags) (op : OpEnv) : Prop :=
  ∃ req reply us, Exchanged pb flags op req reply us

/-- The request of `op` is `req`. -/
def Requests (pb : Protobuf) (flags : ClientFlags) (op : OpEnv) (req : Msg) : Prop :=
  (reqFill pb 0 flags.workload op.rnd flags.blockSize flags.blockCount []).val = .ok req

section Samples

variable {D : Type} [IntCast D] [Sub D] [Div D] {ovf : ℤ → ℤ}

/-- What an accepted operation adds to the state. -/
def ClientState.add (ovf : ℤ → ℤ) (flags : ClientFlags) (op : OpEnv) (req : Msg) (us : UInt64)
    (st : ClientState D) : ClientState D where
  lat := st.lat ++ [latencySample op.startNs op.endNs us]
  tput := st.tput ++ [throughputSample ovf flags op.startNs op.endNs us]
  sent := st.sent ++ [req]

/-! ### One operation -/

/-- At the default verbosity the log line of the loop evaluates nothing. -/
theorem vlog_default (level : ℕ) (hlevel : 0 < level) (text : Call String) :
    (vlog 0 level text).val = .ok () := by
  rw [vlog, if_neg (by omega)]
  rfl

theorem clientOp_accepted {op : OpEnv} {req reply : Msg} {us : UInt64}
    (h : Exchanged pb flags op req reply us) (st : ClientState D) :
    clientOp pb 0 ovf flags op st = (st.add ovf flags op req us, .ok ()) := by
  have hhdr := (getRemoteProcessTimeUs_ok_iff reply us).mpr h.header
  have hlog := vlog_default LogLevel.stringMem (by decide)
  rw [clientOp, h.fill]
  simp only [hlog, h.send, hhdr, h.valid]
  rfl

variable (ovf) in
/-- An operation that is not accepted ends the run; it sent its own request or none. -/
theorem clientOp_failed {op : OpEnv} (h : ¬ OpAccepted pb flags op) (st : ClientState D) :
    ∃ st' e, clientOp pb 0 ovf flags op st = (st', .error e) ∧
      (st'.sent = st.sent ∨ ∃ req, Requests pb flags op req ∧ st'.sent = st.sent ++ [req]) := by
  have hlog := vlog_default LogLevel.stringMem (by decide)
  rw [clientOp]
  cases hfill : (reqFill pb 0 flags.workload op.rnd flags.blockSize flags.blockCount []).val with
  | error e => exact ⟨st, e, rfl, .inl rfl⟩
  | ok req =>
      -- from here on the request has been handed to the transport
      simp only [hlog]
      cases hsend : op.sendReq req with
      | error e =>
          refine ⟨_, _, rfl, .inr ⟨req, hfill, ?_⟩⟩
          rfl
      | ok reply =>
          dsimp only
          cases hhdr : (getRemoteProcessTimeUs pb reply).val with
          | error e =>
              refine ⟨_, _, rfl, .inr ⟨req, hfill, ?_⟩⟩
              rfl
          | ok us =>
              dsimp only
              cases hvalid : (replyIsValid 0 flags.workload op.after req reply).val with
              | error e =>
                  refine ⟨_, _, rfl, .inr ⟨req, hfill, ?_⟩⟩
                  rfl
              | ok accepted =>
                  cases accepted with
                  | false =>
                      refine ⟨_, _, rfl, .inr ⟨req, hfill, ?_⟩⟩
                      rfl
                  | true =>
                      exact absurd ⟨req, reply, us, hfill, hsend,
                        (getRemoteProcessTimeUs_ok_iff reply us).mp hhdr, hvalid⟩ h

/-! ### The loop -/

/-- **The loop invariant.**  After `k` operations there are `k` requests and `k` samples of each
kind, and those at index `i` belong to the exchange of operation `i`. -/
structure Recorded (pb : Protobuf) (ovf : ℤ → ℤ) (flags : ClientFlags) (ops : ℕ → OpEnv)
    (st : ClientState D) (k : ℕ) : Prop where
  lat_length : st.lat.length = k
  tput_length : st.tput.length = k
  sent_length : st.sent.length = k
  own : ∀ i, i < k → ∃ req reply us, Exchanged pb flags (ops i) req reply us ∧
    st.sent[i]? = some req ∧
    st.lat[i]? = some (latencySample (ops i).startNs (ops i).endNs us) ∧
    st.tput[i]? = some (throughputSample ovf flags (ops i).startNs (ops i).endNs us)

/-- The requests sent are those of the first operations, at most `k` of them. -/
def SentUpTo (pb : Protobuf) (flags : ClientFlags) (ops : ℕ → OpEnv) (sent : List Msg)
    (k : ℕ) : Prop :=
  sent.length ≤ k ∧ ∀ i req, sent[i]? = some req → Requests pb flags (ops i) req

theorem Recorded.init {ops : ℕ → OpEnv} :
    Recorded pb ovf flags ops ({} : ClientState D) 0 :=
  ⟨rfl, rfl, rfl, by omega⟩

theorem getElem?_append_self {α : Type} {xs : List α} {x : α} {i k : ℕ} (hlen : xs.length = k) :
    (i < k → (xs ++ [x])[i]? = xs[i]?) ∧ (xs ++ [x])[k]? = some x := by
  refine ⟨fun hi => List.getElem?_append_left (by omega), ?_⟩
  rw [← hlen, List.getElem?_concat_length]

theorem Recorded.add {ops : ℕ → OpEnv} {st : ClientState D} {k : ℕ}
    (h : Recorded pb ovf flags ops st k) {req reply : Msg} {us : UInt64}
    (hex : Exchanged pb flags (ops k) req reply us) :
    Recorded pb ovf flags ops (st.add ovf flags (ops k) req us) (k + 1) where
  lat_length := by simp [ClientState.add, h.lat_length]
  tput_length := by simp [ClientState.add, h.tput_length]
  sent_length := by simp [ClientState.add, h.sent_length]
  own := by
    intro i hi
    have hlat := getElem?_append_self (i := i)
      (x := latencySample (ops k).startNs (ops k).endNs us) h.lat_length
    have htput := getElem?_append_self (i := i)
      (x := throughputSample ovf flags (ops k).startNs (ops k).endNs us) h.tput_length
    have hsent := getElem?_append_self (i := i) (x := req) h.sent_length
    rcases Nat.lt_succ_iff_lt_or_eq.mp hi with hlt | rfl
    · obtain ⟨req', reply', us', hex', h1, h2, h3⟩ := h.own i hlt
      exact ⟨req', reply', us', hex', (hsent.1 hlt).trans h1, (hlat.1 hlt).trans h2,
        (htput.1 hlt).trans h3⟩
    · exact ⟨req, reply, us, hex, hsent.2, hlat.2, htput.2⟩

theorem Recorded.sentUpTo {ops : ℕ → OpEnv} {st : ClientState D} {k : ℕ}
    (h : Recorded pb ovf flags ops st k) : SentUpTo pb flags ops st.sent k := by
  refine ⟨h.sent_length.le, fun i req hget => ?_⟩
  have hi : i < k := h.sent_length ▸ (List.getElem?_eq_some_iff.mp hget).1
  obtain ⟨req', _, _, hex, hsent, -⟩ := h.own i hi
  rw [hget] at hsent
  cases hsent
  exact hex.fill

/-- The request of one more operation. -/
theorem SentUpTo.append {ops : ℕ → OpEnv} {sent : List Msg} {k : ℕ}
    (h : SentUpTo pb flags ops sent k) (hlen : sent.length = k) {req : Msg}
    (hreq : Requests pb flags (ops k) req) : SentUpTo pb flags ops (sent ++ [req]) (k + 1) := by
  refine ⟨by simp [hlen], fun i req' hget => ?_⟩
  have hself := getElem?_append_self (i := i) (x := req) hlen
  have hi := (List.getElem?_eq_some_iff.mp hget).1
  rw [List.length_append, List.length_singleton, hlen] at hi
  rcases Nat.lt_succ_iff_lt_or_eq.mp hi with hlt | rfl
  · exact h.2 i req' ((hself.1 hlt).symm.trans hget)
  · rw [hself.2] at hget
    cases hget
    exact hreq

/-- How a run of the loop from operation `i` on ends: all `n` operations are on record, or the
first one that is not accepted stopped it. -/
inductive LoopEnd (pb : Protobuf) (ovf : ℤ → ℤ) (flags : ClientFlags) (ops : ℕ → OpEnv) (stop : ℕ) :
    ClientState D × Except Fault Unit → Prop
  | finished {st : ClientState D} (h : Recorded pb ovf flags ops st stop) :
      LoopEnd pb ovf flags ops stop (st, .ok ())
  | failed {st : ClientState D} {e : Fault} (k : ℕ) (hk : k < stop)
      (hbefore : ∀ i, i < k → OpAccepted pb flags (ops i)) (hfail : ¬ OpAccepted pb flags (ops k))
      (hsent : SentUpTo pb flags ops st.sent (k + 1)) :
      LoopEnd pb ovf flags ops stop (st, .error e)

theorem Recorded.accepted {ops : ℕ → OpEnv} {st : ClientState D} {k : ℕ}
    (h : Recorded pb ovf flags ops st k) : ∀ i, i < k → OpAccepted pb flags (ops i) := by
  intro i hi
  obtain ⟨req, reply, us, hex, -⟩ := h.own i hi
  exact ⟨req, reply, us, hex⟩

/-- **The loop**, by induction on the operations left. -/
theorem clientLoop_spec (ops : ℕ → OpEnv) : ∀ (n i : ℕ) (st : ClientState D),
    Recorded pb ovf flags ops st i →
    LoopEnd pb ovf flags ops (i + n) (clientLoop pb 0 ovf flags ops i n st) := by
  intro n
  induction n with
  | zero => intro i st h; exact .finished h
  | succ n ih =>
      intro i st h
      rw [clientLoop]
      by_cases hacc : OpAccepted pb flags (ops i)
      · obtain ⟨req, reply, us, hex⟩ := hacc
        rw [clientOp_accepted hex st]
        have hrest := ih (i + 1) _ (h.add hex)
        rwa [Nat.add_right_comm] at hrest
      · obtain ⟨st', e, hop, hsent⟩ := clientOp_failed ovf hacc st
        rw [hop]
        refine .failed i (by omega) h.accepted hacc ?_
        rcases hsent with hsame | ⟨req, hreq, happ⟩
        · rw [hsame]
          exact ⟨h.sentUpTo.1.trans (Nat.le_succ i), h.sentUpTo.2⟩
        · rw [happ]
          exact h.sentUpTo.append h.sent_length hreq

/-! ### The lines printed -/

/-- How a run of `main` ends: with the lines of a loop that has finished, or with none. -/
inductive MainEnd (pb : Protobuf) (ovf : ℤ → ℤ) (flags : ClientFlags) (ops : ℕ → OpEnv) :
    ClientRun D → Prop
  | passed {st : ClientState D} (h : Recorded pb ovf flags ops st flags.opCount.toInt.toNat) :
      MainEnd pb ovf flags ops
        { final := st
          stdout := [.stats "Throughput (Mbps)" st.tput, .stats "Latency (ms)" st.lat, .testPassed]
          result := .ok () }
  | failed {st : ClientState D} {e : Fault} (k : ℕ) (hk : k < flags.opCount.toInt.toNat)
      (hbefore : ∀ i, i < k → OpAccepted pb flags (ops i)) (hfail : ¬ OpAccepted pb flags (ops k))
      (hsent : SentUpTo pb flags ops st.sent (k + 1)) : MainEnd pb ovf flags ops ⟨st, [], .error e⟩

theorem clientMain_end (pb : Protobuf) (ovf : ℤ → ℤ) (flags : ClientFlags) (ops : ℕ → OpEnv) :
    MainEnd pb ovf flags ops (clientMain pb 0 ovf flags ops : ClientRun D) := by
  have hend := clientLoop_spec ops flags.opCount.toInt.toNat 0 ({} : ClientState D)
    (Recorded.init : Recorded pb ovf flags ops _ 0)
  rw [Nat.zero_add] at hend
  unfold clientMain
  revert hend
  generalize clientLoop pb 0 ovf flags ops 0 flags.opCount.toInt.toNat ({} : ClientState D) = res
  intro hend
  cases hend with
  | finished h => exact .passed h
  | failed k hk hbefore hfail hsent => exact .failed k hk hbefore hfail hsent

/-- **What `Test passed` means.**  For every operation count, workload, block size, block count and
sequence of outcomes of the transport:

* the line is printed exactly when every operation's exchange was accepted;
* then the two statistics are printed before it, over one sample per operation, each taken from its
  own operation;
* when an operation is the first that is not accepted, nothing is printed, and no request was sent
  but those of the operations up to it. -/
theorem clientMain_passed_iff (pb : Protobuf) (ovf : ℤ → ℤ) (flags : ClientFlags)
    (ops : ℕ → OpEnv) :
    (.testPassed ∈ (clientMain pb 0 ovf flags ops : ClientRun D).stdout ↔
      ∀ i, i < flags.opCount.toInt.toNat → OpAccepted pb flags (ops i)) ∧
    (.testPassed ∈ (clientMain pb 0 ovf flags ops : ClientRun D).stdout →
      (clientMain pb 0 ovf flags ops : ClientRun D).stdout
        = [.stats "Throughput (Mbps)" (clientMain pb 0 ovf flags ops).final.tput,
          .stats "Latency (ms)" (clientMain pb 0 ovf flags ops).final.lat, .testPassed] ∧
      Recorded pb ovf flags ops (clientMain pb 0 ovf flags ops : ClientRun D).final
        flags.opCount.toInt.toNat) ∧
    ∀ k, k < flags.opCount.toInt.toNat → (∀ i, i < k → OpAccepted pb flags (ops i)) →
      ¬ OpAccepted pb flags (ops k) →
      (clientMain pb 0 ovf flags ops : ClientRun D).stdout = [] ∧
      SentUpTo pb flags ops (clientMain pb 0 ovf flags ops : ClientRun D).final.sent (k + 1) := by
  have hend := clientMain_end (D := D) pb ovf flags ops
  generalize (clientMain pb 0 ovf flags ops : ClientRun D) = run at hend ⊢
  cases hend with
  | passed h =>
      refine ⟨?_, fun _ => ⟨rfl, h⟩, fun k hk _ hfail => absurd (h.accepted k hk) hfail⟩
      simp only [List.mem_cons, true_or, or_true, true_iff]
      exact h.accepted
  | failed k hk hbefore hfail hsent =>
      refine ⟨?_, ?_, fun k' hk' hbefore' hfail' => ⟨rfl, ?_⟩⟩
      · simp only [List.not_mem_nil, false_iff]
        exact fun hall => hfail (hall k hk)
      · intro hmem
        cases hmem
      · -- both are the first operation that is not accepted
        have hle : k ≤ k' := not_lt.mp fun hlt => hfail' (hbefore k' hlt)
        have hge : k' ≤ k := not_lt.mp fun hlt => hfail (hbefore' k hlt)
        rwa [le_antisymm hge hle]

end Samples

end RpcTransport

import RpcTransport.PayloadCreator

/-!
# The client: reply validation, reply header and main loop

`EchoReplyValidator::isValid` compares a reply with its request buffer by buffer, reading both with
the length of the request's buffer.  `getRemoteProcessTimeUs` takes the server's time out of the
reply header, ignoring whether the parse succeeded.  `clientLoop` is the loop of `main` and
`clientMain` the loop with the lines printed after it.
-/

namespace RpcTransport

variable (pb : Protobuf) (verbosity : ℕ)

/-! ### Validation -/

/-- What memory holds beyond each reply buffer: the byte at an offset from the end of buffer `i`. -/
abbrev Beyond := ℕ → ℕ → UInt8

/-- Both dumps of a mismatch, as long as the request's buffer. -/
def mismatchDump (req reply : DataBuf) : Call String := do
  let reqMem ← bytesToHex req (dumpLen req)
  let replyMem ← bytesToHex reply (dumpLen req)
  pure (reqMem ++ replyMem)

/-- The body of the validator's loop over the indices it visits; `false` at the first mismatch. -/
def EchoReplyValidator.compareBufs (after : Beyond) (req reply : Msg) : List ℕ → Call Bool
  | [] => pure true
  | i :: is => do
      let reqBuf ← vecAt req i
      let replyBuf ← vecAt reply i
      let x ← load reqBuf (fun _ => 0) reqBuf.length
      let y ← load replyBuf (after i) reqBuf.length
      if memcmp x y ≠ 0 then
        let _ ← vlog verbosity LogLevel.stringMem (mismatchDump reqBuf replyBuf)
        pure false
      else compareBufs after req reply is

/-- `EchoReplyValidator::isValid`.  The index is a 32-bit `unsigned`: from `2^32` buffers on it
wraps around to the header and the loop has no end of its own. -/
def EchoReplyValidator.isValid (after : Beyond) (req reply : Msg) : Call Bool := do
  if req.length ≠ reply.length then pure false
  else if req.length < 2 ^ 32 then
    EchoReplyValidator.compareBufs verbosity after req reply (List.range' 1 (req.length - 1))
  else
    let same ← EchoReplyValidator.compareBufs verbosity after req reply
      (List.range' 1 (2 ^ 32 - 1) ++ [0])
    if same then Checked.fail .diverges else pure false

/-- The validator `main` picks for a workload; `ReplyValidator::isValid` accepts everything. -/
def replyIsValid (w : Workload) (after : Beyond) (req reply : Msg) : Call Bool :=
  match w with
  | .echo => EchoReplyValidator.isValid verbosity after req reply
  | _ => pure true

/-- The memory at `buf._addr` begins with `want`. -/
def StartsWith (buf : DataBuf) (after : ℕ → UInt8) (want : Bytes) : Prop :=
  (buf ++ (List.range want.length).map after).take want.length = want

instance (buf : DataBuf) (after : ℕ → UInt8) (want : Bytes) :
    Decidable (StartsWith buf after want) :=
  inferInstanceAs (Decidable (_ = _))

theorem startsWith_self (buf : DataBuf) (after : ℕ → UInt8) : StartsWith buf after buf := by
  rw [StartsWith, List.take_left]

/-- A buffer of the same length begins with the request's bytes only if it equals them. -/
theorem StartsWith.eq_of_length {buf want : DataBuf} {after : ℕ → UInt8}
    (h : StartsWith buf after want) (hlen : buf.length = want.length) : buf = want := by
  rw [StartsWith, ← hlen, List.take_left] at h
  exact h

variable {pb verbosity}

theorem mismatchDump_val (req reply : DataBuf) : ∃ s, (mismatchDump req reply).val = .ok s :=
  ⟨_, rfl⟩

theorem load_self (buf : DataBuf) (after : ℕ → UInt8) :
    (load buf after buf.length).val = .ok buf := by
  rw [load_val, List.take_left]

/-- One iteration: on a match the loop goes on, on a mismatch it answers `false`. -/
theorem EchoReplyValidator.compareBufs_cons (after : Beyond) {req reply : Msg} {i : ℕ}
    (is : List ℕ) {reqBuf replyBuf : DataBuf} (hreq : req[i]? = some reqBuf)
    (hreply : reply[i]? = some replyBuf) :
    (EchoReplyValidator.compareBufs verbosity after req reply (i :: is)).val
      = if StartsWith replyBuf (after i) reqBuf
        then (EchoReplyValidator.compareBufs verbosity after req reply is).val else .ok false := by
  have hlen : reqBuf.length
      = ((replyBuf ++ (List.range reqBuf.length).map (after i)).take reqBuf.length).length := by
    simp only [List.length_take, List.length_append, List.length_map, List.length_range]
    omega
  rw [EchoReplyValidator.compareBufs, Checked.val_bind_ok (vecAt_val hreq),
    Checked.val_bind_ok (vecAt_val hreply), Checked.val_bind_ok (load_self reqBuf _),
    Checked.val_bind_ok (load_val replyBuf _ _)]
  have hiff := (memcmp_eq_zero hlen).trans eq_comm
  by_cases hs : StartsWith replyBuf (after i) reqBuf
  · rw [if_neg (not_not.mpr (hiff.mpr hs)), if_pos hs]
  · obtain ⟨text, htext⟩ := mismatchDump_val reqBuf replyBuf
    rw [if_pos fun hz => hs (hiff.mp hz), if_neg hs, Checked.val_bind_ok (vlog_val htext)]
    rfl

/-- Reply buffer `i` begins with the bytes of request buffer `i`. -/
def MatchesAt (after : Beyond) (req reply : Msg) (i : ℕ) : Prop :=
  StartsWith (reply.getD i []) (after i) (req.getD i [])

instance (after : Beyond) (req reply : Msg) (i : ℕ) : Decidable (MatchesAt after req reply i) :=
  inferInstanceAs (Decidable (StartsWith _ _ _))

/-- **The validator's loop** answers whether all the indices it visits match. -/
theorem EchoReplyValidator.compareBufs_val (after : Beyond) {req reply : Msg}
    (hlen : req.length = reply.length) : ∀ is : List ℕ, (∀ i ∈ is, i < req.length) →
    (EchoReplyValidator.compareBufs verbosity after req reply is).val
      = .ok (decide (∀ i ∈ is, MatchesAt after req reply i)) := by
  intro is
  induction is with
  | nil => intro _; simp [EchoReplyValidator.compareBufs]
  | cons i is ih =>
      intro h
      have hi : i < req.length := h i (by simp)
      have hi' : i < reply.length := hlen ▸ hi
      rw [EchoReplyValidator.compareBufs_cons after is (List.getElem?_eq_getElem hi)
        (List.getElem?_eq_getElem hi'), ih fun j hj => h j (List.mem_cons_of_mem i hj)]
      have hm : MatchesAt after req reply i ↔ StartsWith reply[i] (after i) req[i] := by
        simp [MatchesAt, List.getD_eq_getElem?_getD, hi, hi']
      simp only [List.forall_mem_cons, hm]
      by_cases hs : StartsWith reply[i] (after i) req[i] <;> simp [hs]

/-! ### The reply header -/

variable (pb verbosity)

/-- `getRemoteProcessTimeUs`. -/
def getRemoteProcessTimeUs (reply : Msg) : Call UInt64 := do
  if reply = [] then Checked.fail (.exception "empty reply")
  else
    let first ← vecAt reply 0
    let str ← toStr first
    match (pb.par str).hdr? with
    | none => Checked.fail (.exception "no header")
    | some hdr =>
        match hdr.hdr with
        | .rsp _ h => pure h.msgProcessTimeUs
        | _ => Checked.fail (.exception "unexpected header type")

/-- The first buffer of a reply decodes to a response header of kind `w` carrying the time `us`:
what the parser leaves is a payload with such a header. -/
def HasRspHdr (reply : Msg) (w : Workload) (us : UInt64) : Prop :=
  ∃ first rest hdr h, reply = first :: rest ∧ (pb.par first).hdr? = some hdr ∧
    hdr.hdr = .rsp w h ∧ h.msgProcessTimeUs = us

variable {pb verbosity}

/-- **The client accepts exactly the replies with a response header**, and takes its time. -/
theorem getRemoteProcessTimeUs_ok_iff (reply : Msg) (us : UInt64) :
    (getRemoteProcessTimeUs pb reply).val = .ok us ↔ ∃ w, HasRspHdr pb reply w us := by
  rw [getRemoteProcessTimeUs]
  cases reply with
  | nil => simp [HasRspHdr]
  | cons first rest =>
      rw [if_neg (by simp),
        Checked.val_bind_ok (vecAt_val (show (first :: rest)[0]? = some first from rfl)),
        Checked.val_bind_ok (toStr_val first)]
      cases hhdr : (pb.par first).hdr? with
      | none => simp [HasRspHdr, hhdr]
      | some hdr =>
          cases hkind : hdr.hdr with
          | notSet => simp [HasRspHdr, hhdr, hkind]
          | req w h => simp [HasRspHdr, hhdr, hkind]
          | rsp w h => simp [HasRspHdr, hhdr, hkind]

theorem getRemoteProcessTimeUs_rspHdr (hpb : pb.Lawful) (w : Workload) (us : UInt64) (rest : Msg) :
    (getRemoteProcessTimeUs pb (pb.ser (.rspHdr w us) :: rest)).val = .ok us := by
  have hdec := (hpb.decodes_rspHdr w us).par_eq
  rw [getRemoteProcessTimeUs_ok_iff]
  exact ⟨w, _, rest, _, _, rfl, by rw [hdec]; rfl, rfl, rfl⟩

/-! ### The main loop -/

variable (pb verbosity)

/-- What one operation meets: the random bytes of the request, the two readings of the clock in
nanoseconds, what the transport does with the request (the buffers it appends to the empty reply, or
a fault), and the memory beyond the reply's buffers. -/
structure OpEnv where
  rnd : Random
  startNs : ℤ
  endNs : ℤ
  sendReq : Msg → Except Fault Msg
  after : Beyond

/-- The flags the loop reads. -/
structure ClientFlags where
  workload : Workload
  blockSize : Int32
  blockCount : Int32
  opCount : Int32

/-- Multiplication of two `int`s.  C++ does not say what an overflowing product is; `ovf` is the
number the machine leaves. -/
def intMul (ovf : ℤ → ℤ) (a b : ℤ) : ℤ :=
  if -2 ^ 31 ≤ a * b ∧ a * b < 2 ^ 31 then a * b else ovf (a * b)

section Samples

variable {D : Type} [IntCast D] [Sub D] [Div D]

/-- `std::chrono::microseconds remoteTime(remoteTimeUs)`. -/
def remoteTime (us : UInt64) : ℤ := us.toInt64.toInt

/-- `deltaMs` after the correction, as a number of the type `D` of floating-point values. -/
def latencySample (startNs endNs : ℤ) (us : UInt64) : D :=
  ((endNs - startNs : ℤ) : D) / ((1000000 : ℤ) : D) - ((remoteTime us : ℤ) : D) / ((1000 : ℤ) : D)

/-- `delta` after the correction. -/
def deltaSeconds (startNs endNs : ℤ) (us : UInt64) : D :=
  ((endNs - startNs : ℤ) : D) / ((1000000000 : ℤ) : D)
    - ((remoteTime us : ℤ) : D) / ((1000000 : ℤ) : D)

/-- `((8 * payloadBytes) / delta.count()) / (1024 * 1024)`. -/
def throughputSample (ovf : ℤ → ℤ) (flags : ClientFlags) (startNs endNs : ℤ) (us : UInt64) : D :=
  let payloadBytes := intMul ovf flags.blockSize.toInt flags.blockCount.toInt
  ((intMul ovf 8 payloadBytes : ℤ) : D) / deltaSeconds startNs endNs us / ((1048576 : ℤ) : D)

/-- The accumulators, and the requests handed to the transport so far. -/
structure ClientState (D : Type) where
  lat : List D := []
  tput : List D := []
  sent : List Msg := []

/-- One iteration of the loop: what it leaves of the state, and how it ends. -/
def clientOp (ovf : ℤ → ℤ) (flags : ClientFlags) (op : OpEnv) (st : ClientState D) :
    ClientState D × Except Fault Unit :=
  match (reqFill pb verbosity flags.workload op.rnd flags.blockSize flags.blockCount []).val with
  | .error e => (st, .error e)
  | .ok req =>
    match (vlog verbosity LogLevel.stringMem
        (do let first ← vecAt req 0; bytesToHex first 1)).val with
    | .error e => (st, .error e)
    | .ok () =>
      let st := { st with sent := st.sent ++ [req] }
      match op.sendReq req with
      | .error e => (st, .error e)
      | .ok reply =>
        match (getRemoteProcessTimeUs pb reply).val with
        | .error e => (st, .error e)
        | .ok us =>
          -- the samples are taken before the reply is validated
          let st := { st with
            lat := st.lat ++ [latencySample op.startNs op.endNs us]
            tput := st.tput ++ [throughputSample ovf flags op.startNs op.endNs us] }
          match (replyIsValid verbosity flags.workload op.after req reply).val with
          | .error e => (st, .error e)
          | .ok false => (st, .error (.exception "invalid reply"))
          | .ok true => (st, .ok ())

/-- The loop from operation `i` on, `n` operations; it stops at the first that does not return. -/
def clientLoop (ovf : ℤ → ℤ) (flags : ClientFlags) (ops : ℕ → OpEnv) :
    ℕ → ℕ → ClientState D → ClientState D × Except Fault Unit
  | _, 0, st => (st, .ok ())
  | i, n + 1, st =>
      match clientOp pb verbosity ovf flags (ops i) st with
      | (st', .ok ()) => clientLoop ovf flags ops (i + 1) n st'
      | (st', .error e) => (st', .error e)

/-- What `main` prints after the loop. -/
inductive Line (D : Type)
  | stats (label : String) (acc : List D)
  | testPassed

/-- A run of `main` from the loop on: an uncaught exception ends the process with what was printed
before, which is nothing. -/
structure ClientRun (D : Type) where
  final : ClientState D
  stdout : List (Line D)
  result : Except Fault Unit

def clientMain (ovf : ℤ → ℤ) (flags : ClientFlags) (ops : ℕ → OpEnv) : ClientRun D :=
  match clientLoop pb verbosity ovf flags ops 0 flags.opCount.toInt.toNat {} with
  | (st, .ok ()) =>
      { final := st
        stdout := [.stats "Throughput (Mbps)" st.tput, .stats "Latency (ms)" st.lat, .testPassed]
        result := .ok () }
  | (st, .error e) => { final := st, stdout := [], result := .error e }

end Samples

end RpcTransport

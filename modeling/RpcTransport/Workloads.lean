import RpcTransport.Server
import RpcTransport.EchoValidation
import RpcTransport.ProtoWire

/-!
# The workloads end to end

Creator, dispatcher, reply creator, header decoder and validator put together.

* `serverRcvFn_reqHdr` — what `ServerRcvFn` answers to a request header, workload by workload;
* `workload_roundtrip` — for every request the client can build, the exchange with the server
  succeeds and carries the data;
* `requestAnswered_iff` — for an arbitrary request, when the server refuses it or gives the answer
  its header calls for.  A read header with a negative count, with an `INT_MAX` count or with blocks
  too large to serialize is where it does neither.
-/

namespace RpcTransport

variable {pb : Protobuf}

/-! ### Requests and replies as lists of buffers -/

/-- The buffers of a request. -/
def reqBufs (pb : Protobuf) (w : Workload) (rnd : Random) (blockSize blockCount : Int32) : Msg :=
  pb.ser (.reqHdr w blockCount blockSize)
    :: if w = .read then [] else
      blockBufs pb rnd 1 blockCount.toInt.toNat blockSize.toInt.toNat

theorem reqFill_ok {verbosity : ℕ} (w : Workload) (rnd : Random) {blockSize blockCount : Int32}
    (hsize : 0 ≤ blockSize.toInt) (hcount : 0 ≤ blockCount.toInt)
    (hmax : blockCount.toInt ≤ 2 ^ 31 - 2) :
    (reqFill pb verbosity w rnd blockSize blockCount []).val
      = .ok (reqBufs pb w rnd blockSize blockCount) := by
  rw [reqFill_val, reqBufs]
  split
  · rename_i hw
    rw [hw]
    rfl
  · rw [if_neg (by omega), if_neg (by omega), if_neg (by omega)]
    rfl

/-- The microseconds a reply header carries. -/
def reportedUs (w : Workload) (env : ServerEnv) : UInt64 :=
  match w with
  | .write => 0
  | _ => env.deltaUs

/-- **`ServerRcvFn` on a request header.**  `h` is the header the first buffer parses to. -/
theorem serverRcvFn_reqHdr {verbosity : ℕ} (env : ServerEnv) {first : DataBuf} {hdr : Header}
    {w : Workload} {h : ReqHeader} (hpar : (pb.par first).hdr? = some hdr)
    (hkind : hdr.hdr = .req w h) (rest rsp : Msg) :
    (serverRcvFn pb verbosity env (first :: rest) rsp).val
      = match w with
        | .write => .ok (rsp ++ [pb.ser (.rspHdr .write 0)])
        | .read => (ReadRspPayloadCreator.fill pb verbosity env h.bufSize h.bufCount rsp).val
        | .echo => .ok (rsp ++ echoBufs pb env.deltaUs (first :: rest)) := by
  rw [serverRcvFn_val, hpar]
  simp only [serverDispatch, hkind]
  cases w with
  | write => exact addToMsg_val pb verbosity _ rsp
  | read => rfl
  | echo => exact EchoRspPayloadCreator.fill_val env (by simp) rsp

theorem getElem?_blockBufs {rnd : Random} {first n len i : ℕ} (hi : i < n) :
    (blockBufs pb rnd first n len)[i]?
      = some (pb.ser (.dataOf (randomBytes rnd (first + i) len))) := by
  rw [blockBufs, List.getElem?_map, List.getElem?_range' hi]
  simp

theorem Protobuf.Lawful.decodes_block (hpb : pb.Lawful) (rnd : Random) (i : ℕ) {len : ℕ}
    (hfits : dataPayloadSize len ≤ maxInt) :
    pb.Decodes (pb.ser (.dataOf (randomBytes rnd i len))) (.dataOf (randomBytes rnd i len)) :=
  hpb.decodes (plain_dataOf _) (by rw [byteSize_dataOf, randomBytes_length]; exact hfits)

theorem Protobuf.Lawful.blockBufs_ne_nil (hpb : pb.Lawful) {rnd : Random} {first n len : ℕ}
    (hfits : dataPayloadSize len ≤ maxInt) : ∀ b ∈ blockBufs pb rnd first n len, b ≠ [] := by
  intro b hb
  obtain ⟨i, -, rfl⟩ := List.mem_map.mp hb
  exact hpb.ser_ne_nil (by simp [Payload.dataOf])
    (by rw [byteSize_dataOf, randomBytes_length]; exact hfits)

theorem Protobuf.Lawful.reqBufs_ne_nil (hpb : pb.Lawful) {w : Workload} {rnd : Random}
    {blockSize blockCount : Int32} (hfits : dataPayloadSize blockSize.toInt.toNat ≤ maxInt) :
    ∀ b ∈ reqBufs pb w rnd blockSize blockCount, b ≠ [] := by
  intro b hb
  rcases List.mem_cons.mp hb with rfl | hb
  · exact hpb.ser_ne_nil (by simp [Payload.reqHdr]) (reqHdr_fits _ _ _)
  · split at hb
    · cases hb
    · exact hpb.blockBufs_ne_nil hfits b hb

theorem Protobuf.Lawful.rspHdr_ne_nil (hpb : pb.Lawful) (w : Workload) (us : UInt64) :
    pb.ser (.rspHdr w us) ≠ [] :=
  hpb.ser_ne_nil (by simp [Payload.rspHdr]) (rspHdr_fits w us)

/-- An echo of blocks the runtime wrote gives the same blocks. -/
theorem Protobuf.Lawful.echo_blockBufs (hpb : pb.Lawful) (rnd : Random) (first n : ℕ) {len : ℕ}
    (hfits : dataPayloadSize len ≤ maxInt) :
    (blockBufs pb rnd first n len).map (fun buf => pb.ser (pb.par buf))
      = blockBufs pb rnd first n len := by
  rw [blockBufs, List.map_map]
  refine List.map_congr_left fun i _ => ?_
  exact congrArg pb.ser (hpb.decodes_block rnd i hfits).par_eq

/-! ### The exchange of one operation -/

/-- What a reply to a request of `blockCount` blocks of `blockSize` bytes must be, its header
apart: nothing for a write, the blocks the server drew, in order, for a read, the request's own
buffers for an echo. -/
def ReplyBody (pb : Protobuf) (w : Workload) (env : ServerEnv) (blockSize blockCount : Int32)
    (req rsp : Msg) : Prop :=
  match w with
  | .write => rsp.length = 1
  | .read => (rsp.length : ℤ) = blockCount.toInt + 1 ∧
      ∀ i, i < blockCount.toInt.toNat →
        ∃ buf, rsp[i + 1]? = some buf ∧
          pb.Decodes buf (.dataOf (randomBytes env.rnd i blockSize.toInt.toNat)) ∧
          ((randomBytes env.rnd i blockSize.toInt.toNat).length : ℤ) = blockSize.toInt
  | .echo => (rsp.length : ℤ) = blockCount.toInt + 1 ∧ ∀ i, 1 ≤ i → rsp[i]? = req[i]?

/-- The reply the server sends to the client's own request. -/
def rspBufs (pb : Protobuf) (w : Workload) (env : ServerEnv) (blockSize blockCount : Int32)
    (req : Msg) : Msg :=
  pb.ser (.rspHdr w (reportedUs w env))
    :: match w with
      | .write => []
      | .read => blockBufs pb env.rnd 0 blockCount.toInt.toNat blockSize.toInt.toNat
      | .echo => req.drop 1

theorem serverRcvFn_reqBufs (hpb : pb.Lawful) {verbosity : ℕ} (w : Workload) (rnd : Random)
    (env : ServerEnv) {blockSize blockCount : Int32} (hsize : 0 ≤ blockSize.toInt)
    (hfits : dataPayloadSize blockSize.toInt.toNat ≤ maxInt) (hcount : 0 ≤ blockCount.toInt)
    (hmax : blockCount.toInt ≤ 2 ^ 31 - 2) :
    (serverRcvFn pb verbosity env (reqBufs pb w rnd blockSize blockCount) []).val
      = .ok (rspBufs pb w env blockSize blockCount (reqBufs pb w rnd blockSize blockCount)) := by
  have hdec := (hpb.decodes_reqHdr w blockCount blockSize).par_eq
  rw [reqBufs, serverRcvFn_reqHdr env (by rw [hdec]; rfl) rfl]
  cases w with
  | write => rfl
  | read =>
      show (ReadRspPayloadCreator.fill pb verbosity env blockSize blockCount []).val = _
      rw [ReadRspPayloadCreator.fill_val, if_neg (by omega), if_neg (by omega),
        if_neg (by omega)]
      rfl
  | echo =>
      have hblocks := hpb.echo_blockBufs rnd 1 blockCount.toInt.toNat hfits
      simp only [echoBufs, reduceCtorEq, if_false, List.drop_succ_cons, List.drop_zero,
        List.nil_append, hblocks]
      rfl

theorem rspBufs_body (hpb : pb.Lawful) (w : Workload) (rnd : Random) (env : ServerEnv)
    {blockSize blockCount : Int32} (hsize : 0 ≤ blockSize.toInt)
    (hfits : dataPayloadSize blockSize.toInt.toNat ≤ maxInt) (hcount : 0 ≤ blockCount.toInt) :
    ReplyBody pb w env blockSize blockCount (reqBufs pb w rnd blockSize blockCount)
      (rspBufs pb w env blockSize blockCount (reqBufs pb w rnd blockSize blockCount)) := by
  cases w with
  | write => rfl
  | read =>
      refine ⟨?_, fun i hi => ?_⟩
      · simp only [rspBufs, List.length_cons, blockBufs_length]
        omega
      · refine ⟨_, ?_, hpb.decodes_block env.rnd i hfits, ?_⟩
        · rw [rspBufs, List.getElem?_cons_succ, getElem?_blockBufs hi, Nat.zero_add]
        · rw [randomBytes_length]
          omega
  | echo =>
      refine ⟨?_, fun i hi => ?_⟩
      · simp only [rspBufs, reqBufs, reduceCtorEq, if_false, List.drop_succ_cons, List.drop_zero,
          List.length_cons, blockBufs_length]
        omega
      · obtain ⟨j, rfl⟩ : ∃ j, i = j + 1 := ⟨i - 1, by omega⟩
        simp [rspBufs, reqBufs]

/-- The client's validator accepts a reply whose buffers after the header are the request's. -/
theorem isValid_of_eq {verbosity : ℕ} {after : Beyond} {req reply : Msg}
    (hlen : req.length = reply.length) (hsmall : req.length < 2 ^ 32)
    (heq : ∀ i, 1 ≤ i → reply[i]? = req[i]?) :
    (EchoReplyValidator.isValid verbosity after req reply).val = .ok true := by
  have hsame : SameEcho req reply := ⟨hlen, fun i hi _ => heq i hi⟩
  rw [isValid_eq_true_iff]
  exact ⟨hlen, hsmall, fun i hi hlt => hsame.matchesAt hi hlt⟩

theorem replyIsValid_rspBufs (hpb : pb.Lawful) (w : Workload) (rnd : Random) (env : ServerEnv)
    {verbosity : ℕ} {after : Beyond} {blockSize blockCount : Int32} (hsize : 0 ≤ blockSize.toInt)
    (hfits : dataPayloadSize blockSize.toInt.toNat ≤ maxInt) (hcount : 0 ≤ blockCount.toInt)
    (hmax : blockCount.toInt ≤ 2 ^ 31 - 2) :
    (replyIsValid verbosity w after (reqBufs pb w rnd blockSize blockCount)
      (rspBufs pb w env blockSize blockCount (reqBufs pb w rnd blockSize blockCount))).val
      = .ok true := by
  cases w with
  | write => rfl
  | read => rfl
  | echo =>
      have hbody := rspBufs_body hpb .echo rnd env hsize hfits hcount
      have hlen : (reqBufs pb .echo rnd blockSize blockCount).length
          = blockCount.toInt.toNat + 1 := by
        simp [reqBufs]
      refine isValid_of_eq ?_ (by omega) hbody.2
      have := hbody.1
      omega

/-- **The three workloads work end to end.**  For every block size whose payload the runtime can
write, every block count below `INT_MAX` and every choice of the random bytes, the clock readings
and the verbosities: the creator builds a request, `ServerRcvFn` answers it, no buffer in either
direction is empty, the client reads exactly the time the server put into the header, the reply has
the data it must have, and the validator accepts it. -/
theorem workload_roundtrip (hpb : pb.Lawful) (w : Workload) (blockSize blockCount : Int32)
    (hsize : 0 ≤ blockSize.toInt) (hfits : dataPayloadSize blockSize.toInt.toNat ≤ maxInt)
    (hcount : 0 ≤ blockCount.toInt) (hmax : blockCount.toInt ≤ 2 ^ 31 - 2) (rnd : Random)
    (env : ServerEnv) (after : Beyond) (clientVerbosity serverVerbosity : ℕ) :
    ∃ req rsp,
      (reqFill pb clientVerbosity w rnd blockSize blockCount []).val = .ok req ∧
      (∀ b ∈ req, b ≠ []) ∧
      (serverRcvFn pb serverVerbosity env req []).val = .ok rsp ∧
      (∀ b ∈ rsp, b ≠ []) ∧
      (∃ first rest, rsp = first :: rest ∧ pb.Decodes first (.rspHdr w (reportedUs w env))) ∧
      (getRemoteProcessTimeUs pb rsp).val = .ok (reportedUs w env) ∧
      ReplyBody pb w env blockSize blockCount req rsp ∧
      (replyIsValid clientVerbosity w after req rsp).val = .ok true := by
  refine ⟨reqBufs pb w rnd blockSize blockCount,
    rspBufs pb w env blockSize blockCount (reqBufs pb w rnd blockSize blockCount),
    reqFill_ok w rnd hsize hcount hmax, hpb.reqBufs_ne_nil hfits,
    serverRcvFn_reqBufs hpb w rnd env hsize hfits hcount hmax, ?_,
    ⟨_, _, rfl, hpb.decodes_rspHdr _ _⟩,
    getRemoteProcessTimeUs_rspHdr hpb w _ _,
    rspBufs_body hpb w rnd env hsize hfits hcount, ?_⟩
  · intro b hb
    rcases List.mem_cons.mp hb with rfl | hb
    · exact hpb.rspHdr_ne_nil w _
    · cases w with
      | write => cases hb
      | read => exact hpb.blockBufs_ne_nil hfits b hb
      | echo => exact hpb.reqBufs_ne_nil hfits b (List.mem_of_mem_drop hb)
  · exact replyIsValid_rspBufs hpb w rnd env hsize hfits hcount hmax

/-- The exchange of two echo blocks of three bytes. -/
theorem workload_roundtrip_echo :
    ∃ req rsp,
      (reqFill wireProtobuf 0 .echo (fun i j => UInt8.ofNat (i + j)) 3 2 []).val = .ok req ∧
      (∀ b ∈ req, b ≠ []) ∧
      (serverRcvFn wireProtobuf 5 ⟨fun _ _ => 0, 1000, 43000⟩ req []).val = .ok rsp ∧
      (∀ b ∈ rsp, b ≠ []) ∧
      (∃ first rest, rsp = first :: rest ∧
        wireProtobuf.Decodes first
          (.rspHdr .echo (reportedUs .echo ⟨fun _ _ => 0, 1000, 43000⟩))) ∧
      (getRemoteProcessTimeUs wireProtobuf rsp).val
        = .ok (reportedUs .echo ⟨fun _ _ => 0, 1000, 43000⟩) ∧
      ReplyBody wireProtobuf .echo ⟨fun _ _ => 0, 1000, 43000⟩ 3 2 req rsp ∧
      (replyIsValid 0 .echo (fun _ _ => 0) req rsp).val = .ok true :=
  workload_roundtrip wireProtobuf_lawful .echo 3 2 (by decide) (by decide) (by decide) (by decide)
    (fun i j => UInt8.ofNat (i + j)) ⟨fun _ _ => 0, 1000, 43000⟩ (fun _ _ => 0) 0 5

/-- The flags for which `ServerRcvFn` returns on the request the client builds from them. -/
def RequestServed (w : Workload) (blockSize blockCount : Int32) : Prop :=
  match w with
  | .read => blockCount.toInt ≠ 2 ^ 31 - 1 ∧ (blockCount.toInt ≤ 0 ∨ 0 ≤ blockSize.toInt)
  | _ => 0 ≤ blockCount.toInt

/-- **When the server returns on a client's request.**  A negative count makes a write or an echo
request empty, which is refused; a read request is refused for a size that cannot be allocated. -/
theorem serverRcvFn_built_iff (hpb : pb.Lawful) {clientVerbosity serverVerbosity : ℕ}
    {w : Workload} {rnd : Random} {blockSize blockCount : Int32} {req : Msg} (env : ServerEnv)
    (hreq : (reqFill pb clientVerbosity w rnd blockSize blockCount []).val = .ok req) :
    (∃ rsp, (serverRcvFn pb serverVerbosity env req []).val = .ok rsp) ↔
      RequestServed w blockSize blockCount := by
  have hdec := (hpb.decodes_reqHdr w blockCount blockSize).par_eq
  have hhdr : (pb.par (pb.ser (.reqHdr w blockCount blockSize))).hdr?
      = some { hdr := .req w { bufCount := blockCount, bufSize := blockSize } } := by
    rw [hdec]
    rfl
  rw [reqFill_val] at hreq
  split_ifs at hreq with hread hmax hneg hbad
  · subst hread
    cases hreq
    rw [List.nil_append, serverRcvFn_reqHdr env hhdr rfl]
    dsimp only
    rw [ReadRspPayloadCreator.fill_val]
    unfold RequestServed
    split_ifs <;> simp <;> omega
  · cases hreq
    rw [serverRcvFn_empty]
    cases w with
    | read => exact (hread rfl).elim
    | _ => simp only [RequestServed, reduceCtorEq, exists_false, false_iff]; omega
  · cases hreq
    rw [List.nil_append, serverRcvFn_reqHdr env hhdr rfl]
    cases w with
    | read => exact (hread rfl).elim
    | write => simp only [RequestServed, Except.ok.injEq, exists_eq', true_iff]; omega
    | echo => simp only [RequestServed, Except.ok.injEq, exists_eq', true_iff]; omega

/-! ### Arbitrary requests -/

/-- The answer a request header `h` of kind `w` calls for. -/
structure Answers (pb : Protobuf) (w : Workload) (h : ReqHeader) (req rsp : Msg) : Prop where
  header : ∃ us first rest, rsp = first :: rest ∧ pb.Decodes first (.rspHdr w us) ∧
    (getRemoteProcessTimeUs pb rsp).val = .ok us
  write : w = .write → rsp.length = 1
  echo : w = .echo → rsp.length = req.length
  read : w = .read → (rsp.length : ℤ) = h.bufCount.toInt + 1 ∧
    ∀ buf ∈ rsp.drop 1, ∃ data : Bytes, pb.Decodes buf (.dataOf data) ∧
      (data.length : ℤ) = h.bufSize.toInt

/-- `ServerRcvFn` throws, or returns the answer the request's header calls for. -/
def RequestAnswered (pb : Protobuf) (verbosity : ℕ) (env : ServerEnv) (req : Msg) : Prop :=
  match (serverRcvFn pb verbosity env req []).val with
  | .ok rsp => ∃ w h, HasReqHdr pb req w h ∧ Answers pb w h req rsp
  | .error e => e.IsException

/-- The sizes and counts for which the read creator throws or writes all it is asked for. -/
def ReadServable (h : ReqHeader) : Prop :=
  (0 < h.bufCount.toInt ∧ h.bufSize.toInt < 0) ∨
  h.bufCount.toInt = 0 ∨
  (0 < h.bufCount.toInt ∧ h.bufCount.toInt ≤ 2 ^ 31 - 2 ∧ 0 ≤ h.bufSize.toInt ∧
    dataPayloadSize h.bufSize.toInt.toNat ≤ maxInt)

theorem Protobuf.Lawful.parse_nil (hpb : pb.Lawful) : pb.parseFromString [] = (true, {}) := by
  have hsize : (({} : Payload)).byteSize ≤ maxInt := Nat.zero_le _
  have hnil : pb.ser {} = [] := List.eq_nil_of_length_eq_zero (hpb.ser_length hsize)
  have hdec := hpb.decodes (p := {}) ⟨rfl, trivial⟩ hsize
  rw [hnil] at hdec
  exact hdec

/-- An empty buffer is no data payload. -/
theorem Protobuf.Lawful.not_decodes_nil (hpb : pb.Lawful) (data : Bytes) :
    ¬ pb.Decodes [] (.dataOf data) := by
  intro h
  rw [Decodes, hpb.parse_nil] at h
  exact absurd (congrArg (fun r : Bool × Payload => r.2.payload) h) (by simp [Payload.dataOf])

/-- **Blocks that are data.**  The buffers of `n` blocks of `len` bytes decode to data of that size
exactly when there is none or the runtime can write one. -/
theorem Protobuf.Lawful.blockBufs_data_iff (hpb : pb.Lawful) (rnd : Random) (first n len : ℕ) :
    (∀ buf ∈ blockBufs pb rnd first n len, ∃ data : Bytes, pb.Decodes buf (.dataOf data) ∧
      data.length = len) ↔ n = 0 ∨ dataPayloadSize len ≤ maxInt := by
  constructor
  · intro hdata
    rcases Nat.eq_zero_or_pos n with hzero | hpos
    · exact .inl hzero
    · refine .inr (not_lt.mp fun hexc => ?_)
      have hmem : ([] : DataBuf) ∈ blockBufs pb rnd first n len := by
        refine List.mem_map.mpr ⟨first, List.mem_range'_1.mpr ⟨le_rfl, by omega⟩, ?_⟩
        exact hpb.ser_exceeds (by rw [byteSize_dataOf, randomBytes_length]; exact hexc)
      obtain ⟨data, hdec, -⟩ := hdata [] hmem
      exact hpb.not_decodes_nil data hdec
  · intro hfits buf hbuf
    obtain ⟨i, hi, rfl⟩ := List.mem_map.mp hbuf
    have hi' := List.mem_range'_1.mp hi
    exact ⟨_, hpb.decodes_block rnd i (hfits.resolve_left (by omega)), randomBytes_length rnd i len⟩

theorem answers_header (hpb : pb.Lawful) (w : Workload) (us : UInt64) (rest : Msg) :
    ∃ us' first rest', pb.ser (.rspHdr w us) :: rest = first :: rest' ∧
      pb.Decodes first (.rspHdr w us') ∧
      (getRemoteProcessTimeUs pb (pb.ser (.rspHdr w us) :: rest)).val = .ok us' :=
  ⟨us, _, rest, rfl, hpb.decodes_rspHdr w us,
    getRemoteProcessTimeUs_rspHdr hpb w us rest⟩

/-- The read reply has the blocks it was asked for exactly when they can be serialized. -/
theorem answers_read_iff (hpb : pb.Lawful) (env : ServerEnv) (req : Msg) {h : ReqHeader}
    (hcount : 0 ≤ h.bufCount.toInt) (hsize : 0 < h.bufCount.toInt → 0 ≤ h.bufSize.toInt) :
    Answers pb .read h req (pb.ser (.rspHdr .read env.deltaUs)
        :: blockBufs pb env.rnd 0 h.bufCount.toInt.toNat h.bufSize.toInt.toNat)
      ↔ h.bufCount.toInt = 0 ∨ dataPayloadSize h.bufSize.toInt.toNat ≤ maxInt := by
  have hdata := hpb.blockBufs_data_iff env.rnd 0 h.bufCount.toInt.toNat h.bufSize.toInt.toNat
  have hzero : h.bufCount.toInt.toNat = 0 ↔ h.bufCount.toInt = 0 := by omega
  rw [← hzero, ← hdata]
  constructor
  · intro hans buf hbuf
    obtain ⟨data, hdec, hlen⟩ := (hans.read rfl).2 buf hbuf
    exact ⟨data, hdec, by omega⟩
  · intro hblocks
    refine ⟨answers_header hpb .read _ _, by simp, by simp, fun _ => ⟨?_, fun buf hbuf => ?_⟩⟩
    · simp only [List.length_cons, blockBufs_length]
      omega
    · obtain ⟨data, hdec, hlen⟩ := hblocks buf hbuf
      have hpos : 0 < h.bufCount.toInt.toNat := by
        rw [← blockBufs_length pb env.rnd 0 h.bufCount.toInt.toNat h.bufSize.toInt.toNat]
        exact List.length_pos_of_mem hbuf
      have := hsize (by omega)
      exact ⟨data, hdec, by omega⟩

/-- The read case: `ServerRcvFn` throws or writes all it is asked for exactly when the header is
servable. -/
theorem readAnswered_iff (hpb : pb.Lawful) (verbosity : ℕ) (env : ServerEnv) (h : ReqHeader)
    (req : Msg) :
    (match (ReadRspPayloadCreator.fill pb verbosity env h.bufSize h.bufCount []).val with
      | .ok rsp => ∃ w h', Hdr.req .read h = .req w h' ∧ Answers pb w h' req rsp
      | .error e => e.IsException) ↔ ReadServable h := by
  have hw : ∀ rsp, (∃ w h', Hdr.req .read h = .req w h' ∧ Answers pb w h' req rsp)
      ↔ Answers pb .read h req rsp := by
    intro rsp
    constructor
    · rintro ⟨w, h', heq, hans⟩
      cases heq
      exact hans
    · intro hans
      exact ⟨.read, h, rfl, hans⟩
  have hhigh := Int32.toInt_lt h.bufCount
  simp only [hw]
  rw [ReadRspPayloadCreator.fill_val]
  unfold ReadServable
  split_ifs with hbad hmax hneg
  · simp [Fault.IsException, hbad]
  · simp only [Fault.IsException, false_iff]
    omega
  · constructor
    · intro hans
      obtain ⟨_, _, _, hcons, -⟩ := hans.header
      cases hcons
    · omega
  · show Answers pb .read h req _ ↔ _
    rw [List.nil_append, answers_read_iff hpb env _ (by omega) (by omega)]
    omega

/-- **When an accepted request gets its matching answer.**  For every list of buffers: `ServerRcvFn`
throws or answers as the header asks, except on a read header whose count is negative or `INT_MAX`
or whose blocks are too large to serialize (and which is not refused for a negative size). -/
theorem requestAnswered_iff (hpb : pb.Lawful) (verbosity : ℕ) (env : ServerEnv) (req : Msg) :
    RequestAnswered pb verbosity env req ↔
      ∀ h, HasReqHdr pb req .read h → ReadServable h := by
  unfold RequestAnswered
  cases req with
  | nil =>
      rw [serverRcvFn_empty]
      simp [Fault.IsException, HasReqHdr]
  | cons first rest =>
      cases hpar : (pb.par first).hdr? with
      | none =>
          rw [serverRcvFn_val, hpar]
          simp [Fault.IsException, HasReqHdr, hpar]
      | some hdr =>
          simp only [hasReqHdr_cons_iff hpar]
          cases hkind : hdr.hdr with
          | notSet =>
              rw [serverRcvFn_val, hpar]
              simp [serverDispatch, hkind, Fault.IsException]
          | rsp w h =>
              rw [serverRcvFn_val, hpar]
              simp [serverDispatch, hkind, Fault.IsException]
          | req w h =>
              rw [serverRcvFn_reqHdr env hpar hkind]
              cases w with
              | write =>
                  simp only [List.nil_append, Hdr.req.injEq, reduceCtorEq, false_and,
                    IsEmpty.forall_iff, implies_true, iff_true]
                  exact ⟨.write, h, ⟨rfl, rfl⟩, answers_header hpb .write 0 [], by simp, by simp,
                    by simp⟩
              | echo =>
                  simp only [List.nil_append, Hdr.req.injEq, reduceCtorEq, false_and,
                    IsEmpty.forall_iff, implies_true, iff_true]
                  exact ⟨.echo, h, ⟨rfl, rfl⟩, answers_header hpb .echo _ _, by simp,
                    fun _ => echoBufs_length _ (by simp), by simp⟩
              | read =>
                  have hread : ∀ P : ReqHeader → Prop,
                      (∀ h', Hdr.req .read h = .req .read h' → P h') ↔ P h := by
                    intro P
                    simp
                  rw [hread]
                  exact readAnswered_iff hpb verbosity env h (first :: rest)

/-- A write request of one block. -/
theorem requestAnswered_write :
    RequestAnswered wireProtobuf 0 ⟨fun _ _ => 0, 0, 0⟩
        [wireProtobuf.ser (.reqHdr .write 1 1), wireProtobuf.ser (.dataOf [7])] ↔
      ∀ h, HasReqHdr wireProtobuf
        [wireProtobuf.ser (.reqHdr .write 1 1), wireProtobuf.ser (.dataOf [7])] .read h →
          ReadServable h :=
  requestAnswered_iff wireProtobuf_lawful 0 ⟨fun _ _ => 0, 0, 0⟩ _

/-- The request of a client started with a block count of `-1` and the read workload gets an empty
response. -/
theorem read_negative_count_unanswered :
    ¬ RequestAnswered wireProtobuf 0 ⟨fun _ _ => 0, 0, 0⟩
        [wireProtobuf.ser (.reqHdr .read (-1) 0)] := by
  have hdec := (wireProtobuf_lawful.decodes_reqHdr .read (-1) 0).par_eq
  intro hans
  rw [RequestAnswered, serverRcvFn_reqHdr _ (by rw [hdec]; rfl) rfl] at hans
  have hfill : (ReadRspPayloadCreator.fill wireProtobuf 0 ⟨fun _ _ => 0, 0, 0⟩ 0 (-1) []).val
      = .ok [] := by
    rw [ReadRspPayloadCreator.fill_val, if_neg (by decide), if_neg (by decide),
      if_pos (by decide)]
  simp only [hfill] at hans
  obtain ⟨w, h, -, hmatch⟩ := hans
  obtain ⟨us, first, rest, hcons, -⟩ := hmatch.header
  cases hcons

end RpcTransport

import RpcTransport.ClientRuns
import RpcTransport.MessageLimit
import RpcTransport.Stream

/-!
# The flags at their bounds

`block_size` and `block_count` are any two `int32`.

* `request_built_iff` — the write and the echo creator build the request they announce, or throw,
  exactly when the loop bound `block_count + 1` does not overflow, the count is not negative and a
  block can be serialized;
* `numerator_exact_iff` — the throughput of an operation counts the bytes of its payloads exactly
  when eight times their number is an `int`.
-/

namespace RpcTransport

variable {pb : Protobuf}

/-! ### Building requests -/

/-- The message a creator announces: the header with both flags, then as many data payloads as the
header says, each of the size it says. -/
structure RequestComplete (pb : Protobuf) (w : Workload) (blockSize blockCount : Int32)
    (msg : Msg) : Prop where
  length : (msg.length : ℤ) = blockCount.toInt + 1
  header : ∃ first rest, msg = first :: rest ∧
    pb.Decodes first (.reqHdr w blockCount blockSize)
  blocks : ∀ buf ∈ msg.drop 1, ∃ data : Bytes, pb.Decodes buf (.dataOf data) ∧
    (data.length : ℤ) = blockSize.toInt

/-- A creator builds all of its message or throws; an overflowing loop bound is neither. -/
def CompleteOrRefused (pb : Protobuf) (w : Workload) (blockSize blockCount : Int32)
    (built : Except Fault Msg) : Prop :=
  match built with
  | .ok msg => RequestComplete pb w blockSize blockCount msg
  | .error e => e.IsException

/-- The flags a request with blocks is built or refused for. -/
def Buildable (blockSize blockCount : Int32) : Prop :=
  0 ≤ blockCount.toInt ∧ blockCount.toInt ≤ 2 ^ 31 - 2 ∧
  (blockCount.toInt = 0 ∨ blockSize.toInt < 0 ∨ dataPayloadSize blockSize.toInt.toNat ≤ maxInt)

/-- A header followed by blocks is the announced message exactly when the blocks are data. -/
theorem requestComplete_iff (hpb : pb.Lawful) (w : Workload) (rnd : Random)
    {blockSize blockCount : Int32} (hcount : 0 ≤ blockCount.toInt)
    (hsize : 0 < blockCount.toInt → 0 ≤ blockSize.toInt) :
    RequestComplete pb w blockSize blockCount (pb.ser (.reqHdr w blockCount blockSize)
        :: blockBufs pb rnd 1 blockCount.toInt.toNat blockSize.toInt.toNat) ↔
      blockCount.toInt = 0 ∨ dataPayloadSize blockSize.toInt.toNat ≤ maxInt := by
  have hdata := hpb.blockBufs_data_iff rnd 1 blockCount.toInt.toNat blockSize.toInt.toNat
  have hzero : blockCount.toInt.toNat = 0 ↔ blockCount.toInt = 0 := by omega
  rw [← hzero, ← hdata]
  constructor
  · intro hmsg buf hbuf
    obtain ⟨data, hdec, hlen⟩ := hmsg.blocks buf hbuf
    exact ⟨data, hdec, by omega⟩
  · intro hblocks
    refine ⟨?_, ⟨_, _, rfl, hpb.decodes_reqHdr _ _ _⟩, ?_⟩
    · simp only [List.length_cons, blockBufs_length]
      omega
    · intro buf hbuf
      obtain ⟨data, hdec, hlen⟩ := hblocks buf hbuf
      have hpos : 0 < blockCount.toInt.toNat := by
        rw [← blockBufs_length pb rnd 1 blockCount.toInt.toNat blockSize.toInt.toNat]
        exact List.length_pos_of_mem hbuf
      have := hsize (by omega)
      exact ⟨data, hdec, by omega⟩

/-- The loop both creators share. -/
theorem fillHdrAndBlocks_complete_iff (hpb : pb.Lawful) (verbosity : ℕ) (w : Workload)
    (rnd : Random) (blockSize blockCount : Int32) :
    CompleteOrRefused pb w blockSize blockCount
        (fillHdrAndBlocks pb verbosity (.reqHdr w blockCount blockSize) rnd blockSize blockCount
          []).val ↔
      Buildable blockSize blockCount := by
  have hhigh := Int32.toInt_lt blockCount
  rw [fillHdrAndBlocks_val, Buildable]
  split_ifs with hmax hneg hbad
  · simp only [CompleteOrRefused, Fault.IsException, false_iff]
    omega
  · refine ⟨fun hmsg => ?_, fun h => by omega⟩
    obtain ⟨first, rest, hcons, -⟩ := RequestComplete.header hmsg
    cases hcons
  · simp only [CompleteOrRefused, Fault.IsException, true_iff]
    omega
  · show RequestComplete pb w blockSize blockCount _ ↔ _
    rw [List.nil_append, requestComplete_iff hpb w rnd (by omega) (by omega)]
    omega

/-- **When a request is complete or refused.**  For every block size and block count, both
creators. -/
theorem request_built_iff (hpb : pb.Lawful) (verbosity : ℕ) (rnd : Random)
    (blockSize blockCount : Int32) :
    (CompleteOrRefused pb .write blockSize blockCount
        (WriteReqPayloadCreator.fill pb verbosity rnd blockSize blockCount []).val ↔
      Buildable blockSize blockCount) ∧
    (CompleteOrRefused pb .echo blockSize blockCount
        (EchoReqPayloadCreator.fill pb verbosity rnd blockSize blockCount []).val ↔
      Buildable blockSize blockCount) :=
  ⟨fillHdrAndBlocks_complete_iff hpb verbosity .write rnd blockSize blockCount,
    fillHdrAndBlocks_complete_iff hpb verbosity .echo rnd blockSize blockCount⟩

/-- Two blocks of three bytes. -/
theorem request_built_small :
    (CompleteOrRefused wireProtobuf .write 3 2
        (WriteReqPayloadCreator.fill wireProtobuf 0 (fun _ _ => 7) 3 2 []).val ↔ Buildable 3 2) ∧
    (CompleteOrRefused wireProtobuf .echo 3 2
        (EchoReqPayloadCreator.fill wireProtobuf 0 (fun _ _ => 7) 3 2 []).val ↔ Buildable 3 2) :=
  request_built_iff wireProtobuf_lawful 0 (fun _ _ => 7) 3 2

/-- With a block count of `-1` the write creator returns without having written even the header. -/
theorem negative_count_builds_nothing :
    ¬ CompleteOrRefused wireProtobuf .write 8 (-1)
        (WriteReqPayloadCreator.fill wireProtobuf 0 (fun _ _ => 0) 8 (-1) []).val := by
  rw [WriteReqPayloadCreator.fill, fillHdrAndBlocks_complete_iff wireProtobuf_lawful]
  exact fun h => absurd h.1 (by decide)

/-! ### Counting the bytes -/

/-- A mathematical integer that an `int` holds. -/
def IsInt (n : ℤ) : Prop := -2 ^ 31 ≤ n ∧ n < 2 ^ 31

/-- `payloadBytes` of the loop. -/
def payloadBytes (ovf : ℤ → ℤ) (flags : ClientFlags) : ℤ :=
  intMul ovf flags.blockSize.toInt flags.blockCount.toInt

/-- `8 * payloadBytes`, what the loop divides by the elapsed time. -/
def bitsMoved (ovf : ℤ → ℤ) (flags : ClientFlags) : ℤ := intMul ovf 8 (payloadBytes ovf flags)

/-- The bytes of the data payload a buffer holds. -/
def dataLength (pb : Protobuf) (buf : DataBuf) : ℕ :=
  match (pb.par buf).payload with
  | .data d => d.data.length
  | _ => 0

def msgDataLength (pb : Protobuf) (msg : Msg) : ℕ := (msg.map (dataLength pb)).sum

/-- The bytes an operation moves: those of the request, or of the reply of a read. -/
def movedBytes (pb : Protobuf) (w : Workload) (req reply : Msg) : ℕ :=
  match w with
  | .read => msgDataLength pb reply
  | _ => msgDataLength pb req

/-- Neither product overflows, and the second is eight times the bytes moved. -/
structure NumeratorExact (pb : Protobuf) (ovf : ℤ → ℤ) (flags : ClientFlags)
    (req reply : Msg) : Prop where
  bytes_fit : IsInt (flags.blockSize.toInt * flags.blockCount.toInt)
  bits_fit : IsInt (8 * payloadBytes ovf flags)
  exact : bitsMoved ovf flags = 8 * (movedBytes pb flags.workload req reply : ℤ)

theorem throughputSample_eq {D : Type} [IntCast D] [Sub D] [Div D] (ovf : ℤ → ℤ)
    (flags : ClientFlags) (startNs endNs : ℤ) (us : UInt64) :
    (throughputSample ovf flags startNs endNs us : D)
      = ((bitsMoved ovf flags : ℤ) : D) / deltaSeconds startNs endNs us
        / ((1048576 : ℤ) : D) := rfl

theorem intMul_of_isInt {ovf : ℤ → ℤ} {a b : ℤ} (h : IsInt (a * b)) : intMul ovf a b = a * b :=
  if_pos h

/-- Both products fit exactly when the second does. -/
theorem products_fit_iff (ovf : ℤ → ℤ) {flags : ClientFlags} (hsize : 0 ≤ flags.blockSize.toInt)
    (hcount : 0 ≤ flags.blockCount.toInt) :
    (IsInt (flags.blockSize.toInt * flags.blockCount.toInt) ∧ IsInt (8 * payloadBytes ovf flags)) ↔
      8 * (flags.blockSize.toInt * flags.blockCount.toInt) < 2 ^ 31 := by
  have hprod := mul_nonneg hsize hcount
  constructor
  · rintro ⟨hbytes, hbits⟩
    rw [payloadBytes, intMul_of_isInt hbytes] at hbits
    exact hbits.2
  · intro hlt
    have hbytes : IsInt (flags.blockSize.toInt * flags.blockCount.toInt) := by
      constructor <;> omega
    refine ⟨hbytes, ?_⟩
    rw [payloadBytes, intMul_of_isInt hbytes]
    constructor <;> omega

theorem Protobuf.Decodes.dataLength_eq {buf : DataBuf} {p : Payload} (h : pb.Decodes buf p) :
    dataLength pb buf = match p.payload with
      | .data d => d.data.length
      | _ => 0 := by
  rw [dataLength, h.par_eq]

/-- The data of blocks that can be written. -/
theorem msgDataLength_blockBufs (hpb : pb.Lawful) (rnd : Random) (first : ℕ) {n len : ℕ}
    (hfits : n = 0 ∨ dataPayloadSize len ≤ maxInt) :
    msgDataLength pb (blockBufs pb rnd first n len) = n * len := by
  have heach : ∀ buf ∈ blockBufs pb rnd first n len, dataLength pb buf = len := by
    intro buf hbuf
    obtain ⟨data, hdec, hlen⟩ := (hpb.blockBufs_data_iff rnd first n len).mpr hfits buf hbuf
    rw [hdec.dataLength_eq]
    exact hlen
  rw [msgDataLength, List.map_congr_left heach, List.map_const', List.sum_replicate_nat,
    blockBufs_length]

/-- A header of either kind adds no data to the blocks behind it. -/
theorem msgDataLength_hdr_blocks (hpb : pb.Lawful) {p : Payload} {hdr : Header}
    (hplain : p.Plain) (hsize : p.byteSize ≤ maxInt) (hhdr : p.payload = .hdr hdr) (rnd : Random)
    (first : ℕ) {n len : ℕ} (hfits : n = 0 ∨ dataPayloadSize len ≤ maxInt) :
    msgDataLength pb (pb.ser p :: blockBufs pb rnd first n len) = n * len := by
  have hzero : dataLength pb (pb.ser p) = 0 := by
    rw [(hpb.decodes hplain hsize).dataLength_eq, hhdr]
  have hblocks := msgDataLength_blockBufs hpb rnd first hfits
  rw [msgDataLength] at hblocks ⊢
  rw [List.map_cons, List.sum_cons, hzero, hblocks, Nat.zero_add]

/-- **The bytes an operation moves** are those its flags announce, where blocks can be written. -/
theorem movedBytes_eq (hpb : pb.Lawful) {verbosity : ℕ} {w : Workload} (rnd : Random)
    (env : ServerEnv) {blockSize blockCount : Int32} {reply : Msg} (hsize : 0 ≤ blockSize.toInt)
    (hcount : 0 ≤ blockCount.toInt) (hmax : blockCount.toInt ≤ 2 ^ 31 - 2)
    (hfits : blockCount.toInt.toNat = 0 ∨ dataPayloadSize blockSize.toInt.toNat ≤ maxInt)
    (hreply : (serverRcvFn pb verbosity env (reqBufs pb w rnd blockSize blockCount) []).val
      = .ok reply) :
    movedBytes pb w (reqBufs pb w rnd blockSize blockCount) reply
      = blockCount.toInt.toNat * blockSize.toInt.toNat := by
  cases w with
  | write =>
      exact msgDataLength_hdr_blocks hpb (plain_reqHdr _ _ _) (reqHdr_fits _ _ _) rfl rnd 1 hfits
  | echo =>
      exact msgDataLength_hdr_blocks hpb (plain_reqHdr _ _ _) (reqHdr_fits _ _ _) rfl rnd 1 hfits
  | read =>
      have hdec := (hpb.decodes_reqHdr .read blockCount blockSize).par_eq
      have hfill := hreply
      rw [reqBufs, serverRcvFn_reqHdr env (by rw [hdec]; rfl) rfl] at hfill
      replace hfill : (ReadRspPayloadCreator.fill pb verbosity env blockSize blockCount []).val
        = .ok reply := hfill
      rw [ReadRspPayloadCreator.fill_val, if_neg (by omega), if_neg (by omega),
        if_neg (by omega)] at hfill
      cases hfill
      exact msgDataLength_hdr_blocks hpb (plain_rspHdr _ _) (rspHdr_fits _ _) rfl env.rnd 0 hfits

theorem dataPayloadSize_le (n : ℕ) (h : n < 2 ^ 31) : dataPayloadSize n ≤ n + 22 := by
  have hinner : lenFieldSize n ≤ n + 11 := by
    have := Wire.varint_length_le (n := n) (j := 9) (lt_trans h (by norm_num))
    unfold lenFieldSize
    omega
  have houter : ∀ m, m < 2 ^ 32 → lenFieldSize m ≤ m + 11 := by
    intro m hm
    have := Wire.varint_length_le (n := m) (j := 9) (lt_trans hm (by norm_num))
    unfold lenFieldSize
    omega
  unfold dataPayloadSize
  split
  · have := houter 0 (by norm_num)
    omega
  · have := houter (lenFieldSize n) (by omega)
    omega

/-- Blocks whose bits an `int` can count can be written. -/
theorem fits_of_bits_fit {blockSize blockCount : Int32} (hsize : 0 ≤ blockSize.toInt)
    (hcount : 0 ≤ blockCount.toInt) (hbits : 8 * (blockSize.toInt * blockCount.toInt) < 2 ^ 31) :
    blockCount.toInt.toNat = 0 ∨ dataPayloadSize blockSize.toInt.toNat ≤ maxInt := by
  rcases Nat.eq_zero_or_pos blockCount.toInt.toNat with hzero | hpos
  · exact .inl hzero
  · have hle : blockSize.toInt * 1 ≤ blockSize.toInt * blockCount.toInt :=
      mul_le_mul_of_nonneg_left (by omega) hsize
    have hpayload := dataPayloadSize_le blockSize.toInt.toNat (by omega)
    refine .inr (hpayload.trans ?_)
    unfold maxInt
    omega

/-- **When the throughput counts the bytes moved.**  For every operation that completes against the
server: exactly when eight times the announced bytes are below `2^31`. -/
theorem numerator_exact_iff (hpb : pb.Lawful) (ovf : ℤ → ℤ) (verbosity : ℕ) {flags : ClientFlags}
    {op : OpEnv} {env : ServerEnv} {req reply : Msg} {us : UInt64}
    (hsize : 0 ≤ flags.blockSize.toInt) (hcount : 0 ≤ flags.blockCount.toInt)
    (hmax : flags.blockCount.toInt ≤ 2 ^ 31 - 2) (hop : Exchanged pb flags op req reply us)
    (hserver : op.sendReq req = (serverRcvFn pb verbosity env req []).val) :
    NumeratorExact pb ovf flags req reply ↔
      8 * (flags.blockSize.toInt * flags.blockCount.toInt) < 2 ^ 31 := by
  have hproducts := products_fit_iff ovf hsize hcount
  constructor
  · intro hexact
    exact hproducts.mp ⟨hexact.bytes_fit, hexact.bits_fit⟩
  · intro hbits
    obtain ⟨hbytes, hbits_fit⟩ := hproducts.mpr hbits
    refine ⟨hbytes, hbits_fit, ?_⟩
    have hreq := hop.fill
    rw [reqFill_ok _ _ hsize hcount hmax] at hreq
    cases hreq
    have hmoved := movedBytes_eq hpb op.rnd env hsize hcount hmax
      (fits_of_bits_fit hsize hcount hbits) (hserver ▸ hop.send)
    rw [hmoved, bitsMoved, intMul_of_isInt hbits_fit, payloadBytes, intMul_of_isInt hbytes,
      Nat.cast_mul, Int.toNat_of_nonneg hsize, Int.toNat_of_nonneg hcount, mul_comm
        flags.blockCount.toInt]

/-- `sendReq` over gRPC: it throws when a buffer of the request or of the response is over the limit
of the side that is to receive it. -/
def serverOp (pb : Protobuf) (lim : MessageLimit) (env : ServerEnv) : OpEnv where
  rnd := fun _ _ => 0
  startNs := 0
  endNs := 1
  sendReq := fun req =>
    if ∀ buf ∈ req, lim.Takes buf.length then
      match (serverRcvFn pb 0 env req []).val with
      | .ok rsp =>
          if ∀ buf ∈ rsp, lim.Takes buf.length then .ok rsp
          else .error (.exception (sendFailed { code := 8 }))
      | .error e => .error e
    else .error (.exception (sendFailed { code := 8 }))
  after := fun _ _ => 0

section ServerOp

variable {lim : MessageLimit} {flags : ClientFlags}

/-- Within the limit it hands the request to the server and the response back. -/
theorem serverOp_sendReq (hpb : pb.Lawful) (env : ServerEnv) (hlim : lim.Carries flags)
    (hsize : 0 ≤ flags.blockSize.toInt)
    (hfits : dataPayloadSize flags.blockSize.toInt.toNat ≤ maxInt)
    (hcount : 0 ≤ flags.blockCount.toInt) (hmax : flags.blockCount.toInt ≤ 2 ^ 31 - 2) :
    let req := reqBufs pb flags.workload (fun _ _ => 0) flags.blockSize flags.blockCount
    (serverOp pb lim env).sendReq req = (serverRcvFn pb 0 env req []).val := by
  have hserved := @serverRcvFn_reqBufs pb hpb 0 flags.workload (fun _ _ => 0) env
    flags.blockSize flags.blockCount hsize hfits hcount hmax
  simp only [serverOp]
  rw [if_pos (hlim.request hpb hfits _ _ _), hserved]
  dsimp only
  rw [if_pos (hlim.response hpb hfits _ _ _ _)]

/-- It completes for all flags whose blocks can be written and are within the limit. -/
theorem exchanged_serverOp (hpb : pb.Lawful) (env : ServerEnv) (hlim : lim.Carries flags)
    (hsize : 0 ≤ flags.blockSize.toInt)
    (hfits : dataPayloadSize flags.blockSize.toInt.toNat ≤ maxInt)
    (hcount : 0 ≤ flags.blockCount.toInt) (hmax : flags.blockCount.toInt ≤ 2 ^ 31 - 2) :
    Exchanged pb flags (serverOp pb lim env)
      (reqBufs pb flags.workload (fun _ _ => 0) flags.blockSize flags.blockCount)
      (rspBufs pb flags.workload env flags.blockSize flags.blockCount
        (reqBufs pb flags.workload (fun _ _ => 0) flags.blockSize flags.blockCount))
      (reportedUs flags.workload env) where
  fill := reqFill_ok flags.workload _ hsize hcount hmax
  send := (serverOp_sendReq hpb env hlim hsize hfits hcount hmax).trans
    (serverRcvFn_reqBufs hpb flags.workload _ env hsize hfits hcount hmax)
  header := (getRemoteProcessTimeUs_ok_iff _ _).mp
    (getRemoteProcessTimeUs_rspHdr hpb flags.workload (reportedUs flags.workload env) _)
  valid := replyIsValid_rspBufs hpb flags.workload _ env hsize hfits hcount hmax

end ServerOp

/-- A read of two blocks of three bytes. -/
theorem numerator_exact_small :
    NumeratorExact wireProtobuf id ⟨.read, 3, 2, 1⟩ (reqBufs wireProtobuf .read (fun _ _ => 0) 3 2)
        (rspBufs wireProtobuf .read ⟨fun _ _ => 7, 0, 0⟩ 3 2
          (reqBufs wireProtobuf .read (fun _ _ => 0) 3 2)) ↔
      8 * ((3 : Int32).toInt * (2 : Int32).toInt) < 2 ^ 31 := by
  have hlim : MessageLimit.grpc.Carries ⟨.read, 3, 2, 1⟩ := ⟨by decide, by decide⟩
  have hop := exchanged_serverOp wireProtobuf_lawful ⟨fun _ _ => 7, 0, 0⟩ hlim (by decide)
    (by decide) (by decide) (by decide)
  have hserver := serverOp_sendReq wireProtobuf_lawful ⟨fun _ _ => 7, 0, 0⟩ hlim (by decide)
    (by decide) (by decide) (by decide)
  exact numerator_exact_iff wireProtobuf_lawful id 0 (by decide) (by decide) (by decide) hop hserver

/-- 256 blocks of 1 MiB: every message is within gRPC's limit, the operation completes, and eight
times its bytes is no `int`. -/
theorem numerator_overflows :
    ∃ req reply us,
      Exchanged wireProtobuf ⟨.write, 1048576, 256, 1⟩
        (serverOp wireProtobuf .grpc ⟨fun _ _ => 0, 0, 0⟩) req reply us ∧
      ∀ ovf, ¬ NumeratorExact wireProtobuf ovf ⟨.write, 1048576, 256, 1⟩ req reply := by
  have hlim : MessageLimit.grpc.Carries ⟨.write, 1048576, 256, 1⟩ := ⟨by decide, by decide⟩
  refine ⟨_, _, _, exchanged_serverOp wireProtobuf_lawful ⟨fun _ _ => 0, 0, 0⟩ hlim (by decide)
    (by decide) (by decide) (by decide), fun ovf hexact => ?_⟩
  have hbits := (products_fit_iff ovf (by decide) (by decide)).mp
    ⟨hexact.bytes_fit, hexact.bits_fit⟩
  exact absurd hbits (by decide)

end RpcTransport

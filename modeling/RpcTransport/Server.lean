import RpcTransport.PayloadCreator

/-!
# The server: reply creators and `ServerRcvFn`

`ServerRcvFn` parses the first buffer of a request, ignoring whether the parse succeeded, and hands
the request to the reply creator of the header's kind.  The write creator answers with a bare
header.  The read creator first draws all blocks, which is the time it reports, then writes header
and blocks.  The echo creator first parses every buffer of the request, which is the time it
reports, then writes a header of its own followed by the re-serialized payloads.

`serverRcvFn_val` lists everything `ServerRcvFn` can do, by the header it finds.
-/

namespace RpcTransport

open Checked (forRange)

variable (pb : Protobuf) (verbosity : ℕ)

/-- What one call of the server draws from its surroundings: the random bytes and the two readings
of `steady_clock`, in nanoseconds, around its counted work. -/
structure ServerEnv where
  rnd : Random
  startNs : ℤ
  endNs : ℤ

/-- `duration_cast<microseconds>(end - start).count()` as the `uint64` of the header. -/
def ServerEnv.deltaUs (env : ServerEnv) : UInt64 :=
  UInt64.ofInt ((env.endNs - env.startNs).tdiv 1000)

/-! ### Reply creators -/

def WriteRspPayloadCreator.fill (msg : Msg) : Call Msg :=
  addToMsg pb verbosity (.rspHdr .write 0) msg

/-- One block of random data of the read reply. -/
def drawBlock (rnd : Random) (blockSize : Int32) (i : ℕ) (randData : List Bytes) :
    Call (List Bytes) := do
  let len ← makeBuf blockSize
  pure (randData ++ [randomBytes rnd i len])

/-- Buffer `i` of a read reply. -/
def readRspBuf (us : UInt64) (randData : List Bytes) (i : ℕ) (msg : Msg) : Call Msg := do
  if i = 0 then addToMsg pb verbosity (.rspHdr .read us) msg
  else
    let block ← vecAt randData (i - 1)
    addToMsg pb verbosity (.dataOf block) msg

def ReadRspPayloadCreator.fill (env : ServerEnv) (blockSize blockCount : Int32) (msg : Msg) :
    Call Msg := do
  let randData ← forRange (drawBlock env.rnd blockSize) 0 blockCount.toInt.toNat []
  let bound ← intAdd blockCount 1
  forRange (readRspBuf pb verbosity env.deltaUs randData) 0 bound.toInt.toNat msg

/-- `payload.ParseFromString(str)` on one buffer of the request; its result is not looked at. -/
def parseBuf (buf : DataBuf) : Call Payload := do
  let str ← toStr buf
  pure (pb.par str)

/-- The dump of the first data buffer, request and reply, both as long as the request's. -/
def echoDump (origMsg msg : Msg) (i : ℕ) : Call String := do
  let orig ← vecAt origMsg i
  let reqMem ← bytesToHex orig (dumpLen orig)
  let out ← vecAt msg i
  let replyMem ← bytesToHex out (dumpLen orig)
  pure (reqMem ++ replyMem)

/-- The payload of buffer `i` of an echo reply: its own header, then the payloads moved over. -/
def echoRspPayload (us : UInt64) (echoData : List Payload) (i : ℕ) : Call Payload :=
  if i = 0 then pure (.rspHdr .echo us) else vecAt echoData i

/-- Buffer `i` of an echo reply. -/
def echoRspBuf (us : UInt64) (origMsg : Msg) (echoData : List Payload) (i : ℕ) (msg : Msg) :
    Call Msg := do
  let payload ← echoRspPayload us echoData i
  let msg ← addToMsg pb verbosity payload msg
  vlogIf (i = 1) verbosity LogLevel.stringMem (echoDump origMsg msg i)
  pure msg

def EchoRspPayloadCreator.fill (env : ServerEnv) (origMsg msg : Msg) : Call Msg := do
  let echoData ← Checked.collect (parseBuf pb) origMsg
  forRange (echoRspBuf pb verbosity env.deltaUs origMsg echoData) 0 echoData.length msg

/-! ### The dispatcher -/

/-- What `ServerRcvFn` does with the header it found. -/
def serverDispatch (env : ServerEnv) (hdr : Header) (req rsp : Msg) : Call Msg :=
  match hdr.hdr with
  | .req .write _ => WriteRspPayloadCreator.fill pb verbosity rsp
  | .req .read h => ReadRspPayloadCreator.fill pb verbosity env h.bufSize h.bufCount rsp
  | .req .echo _ => EchoRspPayloadCreator.fill pb verbosity env req rsp
  | _ => Checked.fail (.exception "unexpected header type")

/-- `ServerRcvFn(req, rsp, rspData)`: returns what `rsp` has become. -/
def serverRcvFn (env : ServerEnv) (req rsp : Msg) : Call Msg := do
  if req = [] then Checked.fail (.exception "empty request")
  else
    let first ← vecAt req 0
    vlog verbosity LogLevel.stringMem (bytesToHex first 1)
    let str ← toStr first
    vlogIf (str.length < 100) verbosity LogLevel.stringMem (bytesToHex str str.length)
    match (pb.par str).hdr? with
    | none => Checked.fail (.exception "no header")
    | some hdr => serverDispatch pb verbosity env hdr req rsp

/-! ### What the creators build -/

variable {pb verbosity}

theorem drawBlock_val (rnd : Random) {blockSize : Int32} (h : 0 ≤ blockSize.toInt) (i : ℕ)
    (randData : List Bytes) :
    (drawBlock rnd blockSize i randData).val
      = .ok (randData ++ [randomBytes rnd i blockSize.toInt.toNat]) := by
  rw [drawBlock, Checked.val_bind_ok (makeBuf_val h)]
  rfl

theorem drawBlock_badAlloc (rnd : Random) {blockSize : Int32} (h : blockSize.toInt < 0) (i : ℕ)
    (randData : List Bytes) : (drawBlock rnd blockSize i randData).val = .error .badAlloc := by
  rw [drawBlock, Checked.val_bind_error (makeBuf_neg h)]

theorem readRspBuf_block (us : UInt64) (rnd : Random) (n len i : ℕ) (msg : Msg) (hi : 1 ≤ i)
    (hn : i < 1 + n) :
    (readRspBuf pb verbosity us ((List.range n).map fun k => randomBytes rnd k len) i msg).val
      = .ok (msg ++ [pb.ser (.dataOf (randomBytes rnd (i - 1) len))]) := by
  have hget : ((List.range n).map fun k => randomBytes rnd k len)[i - 1]?
      = some (randomBytes rnd (i - 1) len) := by
    rw [List.getElem?_map, List.getElem?_range (by omega)]
    rfl
  rw [readRspBuf, if_neg (by omega), Checked.val_bind_ok (vecAt_val hget), addToMsg_val]

theorem range'_pred_map {α : Type} (f : ℕ → α) (n : ℕ) :
    (List.range' 1 n).map (fun i => f (i - 1)) = (List.range' 0 n).map f := by
  rw [show (1 : ℕ) = 1 + 0 from rfl, ← List.map_add_range', List.map_map]
  simp [Function.comp_def]

/-- **The read creator, completely.**  A negative size is refused when there is a block to draw; an
`INT_MAX` count overflows the loop bound; a negative count builds nothing, not even the header;
otherwise the header is followed by the blocks. -/
theorem ReadRspPayloadCreator.fill_val (env : ServerEnv) (blockSize blockCount : Int32)
    (msg : Msg) :
    (ReadRspPayloadCreator.fill pb verbosity env blockSize blockCount msg).val
      = if 0 < blockCount.toInt ∧ blockSize.toInt < 0 then .error .badAlloc
        else if blockCount.toInt = 2 ^ 31 - 1 then .error .signedOverflow
        else if blockCount.toInt < 0 then .ok msg
        else .ok (msg ++ pb.ser (.rspHdr .read env.deltaUs)
          :: blockBufs pb env.rnd 0 blockCount.toInt.toNat blockSize.toInt.toNat) := by
  have hhigh := Int32.toInt_lt blockCount
  unfold ReadRspPayloadCreator.fill
  split
  · rename_i hbad
    rw [Checked.val_bind_error
      (Checked.forRange_error (by omega) (drawBlock_badAlloc env.rnd hbad.2 0 []))]
  rename_i hgood
  -- the blocks drawn are the ones of a non-negative size; without blocks the size is not used
  have hdraw : (forRange (drawBlock env.rnd blockSize) 0 blockCount.toInt.toNat []).val
      = .ok ((List.range blockCount.toInt.toNat).map fun k =>
          randomBytes env.rnd k blockSize.toInt.toNat) := by
    rw [Checked.forRange_append (f := fun i => randomBytes env.rnd i blockSize.toInt.toNat) _ _ _
      (fun j s _ hj => drawBlock_val env.rnd (by omega) j s), List.range_eq_range']
    simp
  rw [Checked.val_bind_ok hdraw]
  split
  · rename_i hmax
    rw [Checked.val_bind_error (intAdd_one_overflow hmax)]
  rename_i hmax
  obtain ⟨b, hb, hbound⟩ := intAdd_one (c := blockCount) (by omega)
  rw [Checked.val_bind_ok hb, hbound]
  split
  · rename_i hneg
    rw [show (blockCount.toInt + 1).toNat = 0 by omega]
    rfl
  · rename_i hneg
    have hhdr : ∀ randData, (readRspBuf pb verbosity env.deltaUs randData 0 msg).val
        = .ok (msg ++ [pb.ser (.rspHdr .read env.deltaUs)]) :=
      fun _ => addToMsg_val pb verbosity _ msg
    rw [show (blockCount.toInt + 1).toNat = blockCount.toInt.toNat + 1 by omega, forRange,
      Checked.val_bind_ok (hhdr _),
      Checked.forRange_append (f := fun i =>
          pb.ser (.dataOf (randomBytes env.rnd (i - 1) blockSize.toInt.toNat))) _ _ _
        (fun j s hj hj' => readRspBuf_block _ env.rnd _ _ j s hj hj'),
      range'_pred_map fun k => pb.ser (.dataOf (randomBytes env.rnd k blockSize.toInt.toNat))]
    simp [blockBufs]

theorem parseBuf_val (buf : DataBuf) : (parseBuf pb buf).val = .ok (pb.par buf) := rfl

/-- The text of the dump is there whenever both messages have the buffer. -/
theorem echoDump_val {origMsg msg : Msg} {i : ℕ} {orig out : DataBuf}
    (horig : origMsg[i]? = some orig) (hout : msg[i]? = some out) :
    ∃ s, (echoDump origMsg msg i).val = .ok s := by
  refine ⟨("0x" ++ String.join ((orig.take (dumpLen orig)).map hexByte))
    ++ ("0x" ++ String.join ((out.take (dumpLen orig)).map hexByte)), ?_⟩
  rw [echoDump, Checked.val_bind_ok (vecAt_val horig),
    Checked.val_bind_ok (bytesToHex_val orig _), Checked.val_bind_ok (vecAt_val hout),
    Checked.val_bind_ok (bytesToHex_val out _)]
  rfl

/-- The payload buffer `i` of an echo reply is written from. -/
def echoPayload (pb : Protobuf) (us : UInt64) (origMsg : Msg) (i : ℕ) : Payload :=
  if i = 0 then .rspHdr .echo us else pb.par (origMsg.getD i [])

theorem echoRspPayload_val (us : UInt64) (origMsg : Msg) (i : ℕ) (hi : i < origMsg.length) :
    (echoRspPayload us (origMsg.map pb.par) i).val = .ok (echoPayload pb us origMsg i) := by
  unfold echoRspPayload echoPayload
  split
  · rfl
  · refine vecAt_val ?_
    rw [List.getElem?_map, List.getElem?_eq_getElem hi, List.getD_eq_getElem?_getD,
      List.getElem?_eq_getElem hi]
    rfl

theorem echoRspBuf_val (us : UInt64) (origMsg : Msg) (i : ℕ) (msg : Msg)
    (hi : i < origMsg.length) (hmsg : i ≤ msg.length) :
    (echoRspBuf pb verbosity us origMsg (origMsg.map pb.par) i msg).val
      = .ok (msg ++ [pb.ser (echoPayload pb us origMsg i)]) := by
  have hlen : i < (msg ++ [pb.ser (echoPayload pb us origMsg i)]).length := by
    rw [List.length_append, List.length_singleton]
    omega
  have hdump := echoDump_val (List.getElem?_eq_getElem hi) (List.getElem?_eq_getElem hlen)
  rw [echoRspBuf, Checked.val_bind_ok (echoRspPayload_val us origMsg i hi),
    Checked.val_bind_ok (addToMsg_val pb verbosity _ msg),
    Checked.val_bind_ok (vlogIf_val fun _ => hdump)]
  rfl

/-- An echo loop over buffers `i, …, i + n - 1`, on a message that already holds the first `i`. -/
theorem echoLoop_val (us : UInt64) (origMsg : Msg) : ∀ (n i : ℕ) (msg : Msg),
    i + n ≤ origMsg.length → i ≤ msg.length →
    (forRange (echoRspBuf pb verbosity us origMsg (origMsg.map pb.par)) i n msg).val
      = .ok (msg ++ (List.range' i n).map fun j => pb.ser (echoPayload pb us origMsg j)) := by
  intro n
  induction n with
  | zero => intro i msg _ _; simp [forRange]
  | succ n ih =>
      intro i msg hle hmsg
      rw [forRange, Checked.val_bind_ok (echoRspBuf_val us origMsg i msg (by omega) hmsg),
        ih (i + 1) _ (by omega) (by simpa using hmsg), List.range'_succ]
      simp

/-- The echo reply to a request: a header, then every further buffer parsed and re-serialized. -/
def echoBufs (pb : Protobuf) (us : UInt64) (req : Msg) : Msg :=
  pb.ser (.rspHdr .echo us) :: (req.drop 1).map fun buf => pb.ser (pb.par buf)

@[simp] theorem echoBufs_length (us : UInt64) {req : Msg} (h : req ≠ []) :
    (echoBufs pb us req).length = req.length := by
  have := List.length_pos_of_ne_nil h
  simp only [echoBufs, List.length_cons, List.length_map, List.length_drop]
  omega

theorem map_echoPayload (us : UInt64) {req : Msg} (h : req ≠ []) :
    ((List.range' 0 req.length).map fun j => pb.ser (echoPayload pb us req j))
      = echoBufs pb us req := by
  apply List.ext_getElem?
  intro i
  obtain ⟨b, bs, rfl⟩ := List.exists_cons_of_ne_nil h
  rw [List.getElem?_map]
  cases i with
  | zero => rfl
  | succ i =>
      simp only [echoBufs, List.drop_succ_cons, List.drop_zero, List.getElem?_cons_succ,
        List.getElem?_map]
      rcases Nat.lt_or_ge i bs.length with hlt | hge
      · rw [List.getElem?_range' (by simpa using hlt), List.getElem?_eq_getElem hlt]
        simp [echoPayload, List.getD_eq_getElem?_getD, List.getElem?_eq_getElem hlt]
      · rw [List.getElem?_eq_none (by simpa using hge), List.getElem?_eq_none hge]
        rfl

theorem EchoRspPayloadCreator.fill_val (env : ServerEnv) {origMsg : Msg} (h : origMsg ≠ [])
    (msg : Msg) :
    (EchoRspPayloadCreator.fill pb verbosity env origMsg msg).val
      = .ok (msg ++ echoBufs pb env.deltaUs origMsg) := by
  rw [EchoRspPayloadCreator.fill,
    Checked.val_bind_ok (Checked.collect_map origMsg fun buf _ => parseBuf_val buf),
    List.length_map, echoLoop_val _ _ _ _ _ (by omega) (by omega), map_echoPayload _ h]

/-! ### What `ServerRcvFn` does -/

theorem serverRcvFn_empty (env : ServerEnv) (rsp : Msg) :
    (serverRcvFn pb verbosity env [] rsp).val = .error (.exception "empty request") := by
  rw [serverRcvFn, if_pos rfl]
  rfl

/-- The log lines of `ServerRcvFn` change nothing; the header of the first buffer decides. -/
theorem serverRcvFn_val (env : ServerEnv) (first : DataBuf) (rest rsp : Msg) :
    (serverRcvFn pb verbosity env (first :: rest) rsp).val
      = match (pb.par first).hdr? with
        | none => .error (.exception "no header")
        | some hdr => (serverDispatch pb verbosity env hdr (first :: rest) rsp).val := by
  rw [serverRcvFn, if_neg (by simp),
    Checked.val_bind_ok (vecAt_val (show (first :: rest)[0]? = some first from rfl)),
    Checked.val_bind_ok (vlog_val (bytesToHex_val first 1)),
    Checked.val_bind_ok (toStr_val first),
    Checked.val_bind_ok (vlogIf_val fun _ => ⟨_, bytesToHex_val first _⟩)]
  split <;> rfl

/-- The first buffer of a request parses to a request header `h` of kind `w`. -/
def HasReqHdr (pb : Protobuf) (req : Msg) (w : Workload) (h : ReqHeader) : Prop :=
  ∃ first rest hdr, req = first :: rest ∧ (pb.par first).hdr? = some hdr ∧ hdr.hdr = .req w h

theorem hasReqHdr_cons_iff {first : DataBuf} {hdr : Header} (hpar : (pb.par first).hdr? = some hdr)
    {rest : Msg} {w : Workload} {h : ReqHeader} :
    HasReqHdr pb (first :: rest) w h ↔ hdr.hdr = .req w h := by
  simp [HasReqHdr, hpar]

end RpcTransport

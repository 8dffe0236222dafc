import RpcTransport.Transport

/-!
# The request creators of the client

`PayloadCreator::addToMsg` serializes a payload and appends the string to the message.  The write
and echo creators build a header and `blockCount` random blocks with it, in a loop that runs over
`blockCount + 1` buffers; they differ in the header alone.  The read creator builds a header.

`reqFill_val` lists everything a creator can do, by the signs of the two parameters.
-/

namespace RpcTransport

open Checked (forRange)

variable (pb : Protobuf) (verbosity : ℕ)

/-- The bytes `randombytes_buf` draws: the `j`-th byte of the buffer filled in iteration `i`. -/
abbrev Random := ℕ → ℕ → UInt8

def randomBytes (rnd : Random) (i len : ℕ) : Bytes := (List.range len).map (rnd i)

@[simp] theorem randomBytes_length (rnd : Random) (i len : ℕ) :
    (randomBytes rnd i len).length = len := by simp [randomBytes]

/-- `PayloadCreator::addToMsg`: a failed serialization leaves an empty string, which is appended
all the same. -/
def addToMsg (payload : Payload) (msg : Msg) : Call Msg := do
  let str := pb.ser payload
  vlog verbosity LogLevel.stringMem (bytesToHex str (dumpLen str))
  vlogIf (str.length < 100) verbosity LogLevel.stringMem (bytesToHex str str.length)
  pure (msg ++ [str])

@[simp] theorem addToMsg_val (payload : Payload) (msg : Msg) :
    (addToMsg pb verbosity payload msg).val = .ok (msg ++ [pb.ser payload]) := by
  rw [addToMsg, Checked.val_bind_ok (vlog_val (bytesToHex_val _ _)),
    Checked.val_bind_ok (vlogIf_val fun _ => ⟨_, bytesToHex_val _ _⟩)]
  rfl

@[simp] theorem safe_addToMsg (payload : Payload) (msg : Msg) :
    (addToMsg pb verbosity payload msg).Safe := by
  rw [addToMsg, Checked.safe_bind_ok (vlog_val (bytesToHex_val _ _)), safe_vlog, safe_bytesToHex,
    Checked.safe_bind_ok (vlogIf_val fun _ => ⟨_, bytesToHex_val _ _⟩), safe_vlogIf,
    safe_bytesToHex]
  exact ⟨fun _ => min_le_right _ _, fun _ _ => le_rfl, Checked.safe_pure _⟩

/-! ### The creators -/

/-- Buffer `i` of a request with blocks: the header, then a block of random bytes each. -/
def fillReqBuf (hdr : Payload) (rnd : Random) (blockSize : Int32) (i : ℕ) (msg : Msg) :
    Call Msg := do
  if i = 0 then addToMsg pb verbosity hdr msg
  else
    let len ← makeBuf blockSize
    addToMsg pb verbosity (.dataOf (randomBytes rnd i len)) msg

/-- `for (auto i = 0; i < (blockCount + 1); ++i)`. -/
def fillHdrAndBlocks (hdr : Payload) (rnd : Random) (blockSize blockCount : Int32) (msg : Msg) :
    Call Msg := do
  let bound ← intAdd blockCount 1
  forRange (fillReqBuf pb verbosity hdr rnd blockSize) 0 bound.toInt.toNat msg

def WriteReqPayloadCreator.fill (rnd : Random) (blockSize blockCount : Int32) (msg : Msg) :
    Call Msg :=
  fillHdrAndBlocks pb verbosity (.reqHdr .write blockCount blockSize) rnd blockSize blockCount msg

def ReadReqPayloadCreator.fill (blockSize blockCount : Int32) (msg : Msg) : Call Msg :=
  addToMsg pb verbosity (.reqHdr .read blockCount blockSize) msg

def EchoReqPayloadCreator.fill (rnd : Random) (blockSize blockCount : Int32) (msg : Msg) :
    Call Msg :=
  fillHdrAndBlocks pb verbosity (.reqHdr .echo blockCount blockSize) rnd blockSize blockCount msg

/-- The creator `main` picks for a workload. -/
def reqFill (w : Workload) (rnd : Random) (blockSize blockCount : Int32) (msg : Msg) : Call Msg :=
  match w with
  | .write => WriteReqPayloadCreator.fill pb verbosity rnd blockSize blockCount msg
  | .read => ReadReqPayloadCreator.fill pb verbosity blockSize blockCount msg
  | .echo => EchoReqPayloadCreator.fill pb verbosity rnd blockSize blockCount msg

/-! ### What they build -/

/-- `n` blocks of `len` random bytes, as payload buffers in order. -/
def blockBufs (rnd : Random) (first n len : ℕ) : Msg :=
  (List.range' first n).map fun i => pb.ser (.dataOf (randomBytes rnd i len))

@[simp] theorem blockBufs_length (rnd : Random) (first n len : ℕ) :
    (blockBufs pb rnd first n len).length = n := by simp [blockBufs]

variable {pb verbosity}

theorem fillReqBuf_hdr (hdr : Payload) (rnd : Random) (blockSize : Int32) (msg : Msg) :
    (fillReqBuf pb verbosity hdr rnd blockSize 0 msg).val = .ok (msg ++ [pb.ser hdr]) :=
  addToMsg_val pb verbosity hdr msg

theorem fillReqBuf_block (hdr : Payload) (rnd : Random) {blockSize : Int32} (i : ℕ) (msg : Msg)
    (hi : i ≠ 0) (hsize : 0 ≤ blockSize.toInt) :
    (fillReqBuf pb verbosity hdr rnd blockSize i msg).val
      = .ok (msg ++ [pb.ser (.dataOf (randomBytes rnd i blockSize.toInt.toNat))]) := by
  rw [fillReqBuf, if_neg hi, Checked.val_bind_ok (makeBuf_val hsize), addToMsg_val]

theorem fillReqBuf_badAlloc (hdr : Payload) (rnd : Random) {blockSize : Int32} (i : ℕ) (msg : Msg)
    (hi : i ≠ 0) (hsize : blockSize.toInt < 0) :
    (fillReqBuf pb verbosity hdr rnd blockSize i msg).val = .error .badAlloc := by
  rw [fillReqBuf, if_neg hi, Checked.val_bind_error (makeBuf_neg hsize)]

/-- **The creators with blocks, completely.**  An `INT_MAX` count overflows the loop bound; a
negative count builds nothing, not even the header; a negative size is refused when there is a
block to allocate; otherwise the header is followed by the blocks. -/
theorem fillHdrAndBlocks_val (hdr : Payload) (rnd : Random) (blockSize blockCount : Int32)
    (msg : Msg) :
    (fillHdrAndBlocks pb verbosity hdr rnd blockSize blockCount msg).val
      = if blockCount.toInt = 2 ^ 31 - 1 then .error .signedOverflow
        else if blockCount.toInt < 0 then .ok msg
        else if 0 < blockCount.toInt ∧ blockSize.toInt < 0 then .error .badAlloc
        else .ok (msg ++ pb.ser hdr
          :: blockBufs pb rnd 1 blockCount.toInt.toNat blockSize.toInt.toNat) := by
  have hhigh := Int32.toInt_lt blockCount
  unfold fillHdrAndBlocks
  split
  · rename_i hmax
    rw [Checked.val_bind_error (intAdd_one_overflow hmax)]
  rename_i hmax
  obtain ⟨b, hb, hbound⟩ := intAdd_one (c := blockCount) (by omega)
  rw [Checked.val_bind_ok hb, hbound]
  split
  · rename_i hneg
    rw [show (blockCount.toInt + 1).toNat = 0 by omega]
    rfl
  rename_i hneg
  rw [show (blockCount.toInt + 1).toNat = blockCount.toInt.toNat + 1 by omega, forRange,
    Checked.val_bind_ok (fillReqBuf_hdr hdr rnd blockSize msg)]
  split
  · rename_i hbad
    exact Checked.forRange_error (by omega)
      (fillReqBuf_badAlloc hdr rnd 1 _ (by decide) hbad.2)
  · rename_i hgood
    rcases Nat.eq_zero_or_pos blockCount.toInt.toNat with hzero | hpos
    · rw [hzero]
      rfl
    · have hsize : 0 ≤ blockSize.toInt := by omega
      rw [Checked.forRange_append (f := fun i =>
          pb.ser (.dataOf (randomBytes rnd i blockSize.toInt.toNat))) _ _ _
        (fun j s hj _ => fillReqBuf_block hdr rnd j s (by omega) hsize)]
      simp [blockBufs]

theorem reqFill_val (w : Workload) (rnd : Random) (blockSize blockCount : Int32) (msg : Msg) :
    (reqFill pb verbosity w rnd blockSize blockCount msg).val
      = if w = .read then .ok (msg ++ [pb.ser (.reqHdr .read blockCount blockSize)])
        else if blockCount.toInt = 2 ^ 31 - 1 then .error .signedOverflow
        else if blockCount.toInt < 0 then .ok msg
        else if 0 < blockCount.toInt ∧ blockSize.toInt < 0 then .error .badAlloc
        else .ok (msg ++ pb.ser (.reqHdr w blockCount blockSize)
          :: blockBufs pb rnd 1 blockCount.toInt.toNat blockSize.toInt.toNat) := by
  cases w with
  | write => exact fillHdrAndBlocks_val _ rnd blockSize blockCount msg
  | read => exact addToMsg_val pb verbosity _ msg
  | echo => exact fillHdrAndBlocks_val _ rnd blockSize blockCount msg

end RpcTransport

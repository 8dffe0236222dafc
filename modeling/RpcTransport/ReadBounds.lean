import RpcTransport.Server
import RpcTransport.Client
import RpcTransport.ProtoWire

/-!
# Which reads stay inside their buffers

A peer chooses the number, the lengths and the bytes of the buffers it delivers.  Everything the
programs read of them is in bounds, with three exceptions:

* the validator reads each reply buffer with the length of the request's (`ValidatorInBounds`);
* the server's log reads the first byte of the first buffer;
* the server's dump of the first data buffer reads the re-serialized one with the length of the one
  received (both in `ServerInBounds`).

`reads_in_bounds_iff` says that nothing else goes wrong and that these do.
-/

namespace RpcTransport

open Checked (forRange)

variable {pb : Protobuf} {verbosity : ℕ}

/-! ### The client -/

theorem getRemoteProcessTimeUs_safe (reply : Msg) : (getRemoteProcessTimeUs pb reply).Safe := by
  rw [getRemoteProcessTimeUs]
  cases reply with
  | nil => exact Checked.safe_fail _
  | cons first rest =>
      rw [if_neg (by simp),
        Checked.safe_bind_ok (vecAt_val (show (first :: rest)[0]? = some first from rfl)),
        Checked.safe_bind_ok (toStr_val first)]
      refine ⟨safe_vecAt (by simp), safe_toStr first, ?_⟩
      split
      · exact Checked.safe_fail _
      · split
        · exact Checked.safe_pure _
        · exact Checked.safe_fail _

/-- The dump of a mismatch reads no further than the comparison before it. -/
theorem mismatchDump_safe {req reply : DataBuf} (h : req.length ≤ reply.length) :
    (mismatchDump req reply).Safe := by
  have hreq : dumpLen req ≤ req.length := min_le_right _ _
  rw [mismatchDump, Checked.safe_bind_ok (bytesToHex_val _ _), safe_bytesToHex,
    Checked.safe_bind_ok (bytesToHex_val _ _), safe_bytesToHex]
  exact ⟨hreq, hreq.trans h, Checked.safe_pure _⟩

/-- A buffer that is long enough begins with the request's bytes only if they are a prefix. -/
theorem startsWith_iff_prefix {buf want : DataBuf} {after : ℕ → UInt8}
    (h : want.length ≤ buf.length) : StartsWith buf after want ↔ want <+: buf := by
  rw [StartsWith, List.take_append_of_le_length h, List.prefix_iff_eq_take, eq_comm]

/-- One iteration of the validator: the read of the reply's buffer is the only one at risk, and the
loop goes on only past a match. -/
theorem compareBufs_cons_safe_iff (after : Beyond) {req reply : Msg} {i : ℕ} (is : List ℕ)
    {reqBuf replyBuf : DataBuf} (hreq : req[i]? = some reqBuf)
    (hreply : reply[i]? = some replyBuf) :
    (EchoReplyValidator.compareBufs verbosity after req reply (i :: is)).Safe ↔
      reqBuf.length ≤ replyBuf.length ∧
        (reqBuf <+: replyBuf →
          (EchoReplyValidator.compareBufs verbosity after req reply is).Safe) := by
  have hlt := (List.getElem?_eq_some_iff.mp hreq).1
  have hlt' := (List.getElem?_eq_some_iff.mp hreply).1
  rw [EchoReplyValidator.compareBufs, Checked.safe_bind_ok (vecAt_val hreq),
    Checked.safe_bind_ok (vecAt_val hreply), Checked.safe_bind_ok (load_self reqBuf _),
    Checked.safe_bind_ok (load_val replyBuf _ _), safe_load, safe_load]
  simp only [safe_vecAt hlt, safe_vecAt hlt', le_refl, true_and]
  refine and_congr_right fun hlen => ?_
  have heq : memcmp reqBuf
      ((replyBuf ++ (List.range reqBuf.length).map (after i)).take reqBuf.length) = 0
      ↔ reqBuf <+: replyBuf := by
    rw [memcmp_eq_zero (by simp), eq_comm]
    exact startsWith_iff_prefix hlen
  split
  · rename_i hne
    have hnot := fun hpre => hne (heq.mpr hpre)
    obtain ⟨text, htext⟩ := mismatchDump_val reqBuf replyBuf
    rw [Checked.safe_bind_ok (vlog_val htext), safe_vlog]
    simp only [mismatchDump_safe hlen, implies_true, Checked.safe_pure, and_self, true_iff]
    exact fun hpre => absurd hpre hnot
  · rename_i hz
    simp only [heq.mp (not_not.mp hz), true_implies]

/-- The indices of the buffers the validator looks at, in order. -/
def visited (n : ℕ) : List ℕ :=
  if n < 2 ^ 32 then List.range' 1 (n - 1) else List.range' 1 (2 ^ 32 - 1) ++ [0]

/-- Along `is`, the first buffer of the reply that does not go on from its request's bytes, and
every one before it, is at least as long as its request's. -/
def LongEnough (req reply : Msg) (is : List ℕ) : Prop :=
  ∀ before i rest, is = before ++ i :: rest →
    (∀ j ∈ before, req.getD j [] <+: reply.getD j []) →
      (req.getD i []).length ≤ (reply.getD i []).length

theorem longEnough_cons {req reply : Msg} {i : ℕ} {is : List ℕ} :
    LongEnough req reply (i :: is) ↔ (req.getD i []).length ≤ (reply.getD i []).length ∧
      (req.getD i [] <+: reply.getD i [] → LongEnough req reply is) := by
  constructor
  · intro h
    refine ⟨h [] i is rfl (by simp), fun hpre before j rest heq hbefore => ?_⟩
    exact h (i :: before) j rest (by rw [heq]; rfl) (List.forall_mem_cons.mpr ⟨hpre, hbefore⟩)
  · rintro ⟨hlen, hrest⟩ before j rest heq hbefore
    cases before with
    | nil =>
        obtain ⟨rfl, -⟩ := List.cons.inj heq
        exact hlen
    | cons k before =>
        obtain ⟨rfl, heq'⟩ := List.cons.inj heq
        obtain ⟨hpre, hbefore'⟩ := List.forall_mem_cons.mp hbefore
        exact hrest hpre before j rest heq' hbefore'

theorem compareBufs_safe_iff (after : Beyond) {req reply : Msg} (hlen : req.length = reply.length) :
    ∀ is : List ℕ, (∀ i ∈ is, i < req.length) →
      ((EchoReplyValidator.compareBufs verbosity after req reply is).Safe ↔
        LongEnough req reply is) := by
  intro is
  induction is with
  | nil =>
      intro _
      simp [EchoReplyValidator.compareBufs, LongEnough]
  | cons i is ih =>
      intro h
      have hi : i < req.length := h i (by simp)
      have hi' : i < reply.length := hlen ▸ hi
      rw [compareBufs_cons_safe_iff after is (List.getElem?_eq_getElem hi)
        (List.getElem?_eq_getElem hi'), ih fun j hj => h j (List.mem_cons_of_mem i hj),
        longEnough_cons]
      simp [List.getD_eq_getElem?_getD, hi, hi']

/-- The validator's reads: either it makes none, or the reply's buffers are long enough up to the
first one that differs. -/
def ValidatorInBounds (req reply : Msg) : Prop :=
  req.length = reply.length → LongEnough req reply (visited req.length)

theorem isValid_safe_iff (after : Beyond) (req reply : Msg) :
    (EchoReplyValidator.isValid verbosity after req reply).Safe ↔ ValidatorInBounds req reply := by
  unfold EchoReplyValidator.isValid ValidatorInBounds visited
  by_cases hlen : req.length = reply.length
  · rw [if_neg (not_not.mpr hlen)]
    simp only [hlen, true_implies]
    rw [← hlen]
    split
    · refine compareBufs_safe_iff after hlen _ fun i hi => ?_
      have := List.mem_range'_1.mp hi
      omega
    · have hvisit : ∀ i ∈ List.range' 1 (2 ^ 32 - 1) ++ [0], i < req.length := by
        intro i hi
        rw [List.mem_append, List.mem_range'_1, List.mem_singleton] at hi
        omega
      rw [Checked.safe_bind, compareBufs_safe_iff after hlen _ hvisit, and_iff_left_iff_imp]
      intro _ same _
      split
      · exact Checked.safe_fail _
      · exact Checked.safe_pure _
  · rw [if_pos hlen]
    simp [hlen]

/-! ### The server's creators -/

theorem WriteRspPayloadCreator.fill_safe (msg : Msg) :
    (WriteRspPayloadCreator.fill pb verbosity msg).Safe := safe_addToMsg pb verbosity _ msg

theorem drawBlock_safe (rnd : Random) (blockSize : Int32) (i : ℕ) (randData : List Bytes) :
    (drawBlock rnd blockSize i randData).Safe := by
  rw [drawBlock, Checked.safe_bind]
  exact ⟨safe_makeBuf _, fun _ _ => Checked.safe_pure _⟩

/-- A drawn block adds one to the blocks drawn. -/
theorem drawBlock_length {rnd : Random} {blockSize : Int32} {i : ℕ}
    {randData randData' : List Bytes}
    (h : (drawBlock rnd blockSize i randData).val = .ok randData') :
    randData'.length = randData.length + 1 := by
  rcases lt_or_ge blockSize.toInt 0 with hneg | hpos
  · rw [drawBlock_badAlloc rnd hneg] at h
    cases h
  · rw [drawBlock_val rnd hpos] at h
    cases h
    simp

theorem drawBlocks_length {rnd : Random} {blockSize : Int32} :
    ∀ (n i : ℕ) (randData randData' : List Bytes),
      (forRange (drawBlock rnd blockSize) i n randData).val = .ok randData' →
      randData'.length = randData.length + n := by
  intro n
  induction n with
  | zero =>
      intro i randData randData' h
      cases h
      rfl
  | succ n ih =>
      intro i randData randData' h
      rw [forRange, Checked.val_bind] at h
      cases hdraw : (drawBlock rnd blockSize i randData).val with
      | error e =>
          rw [hdraw] at h
          cases h
      | ok next =>
          rw [hdraw] at h
          have hnext := ih (i + 1) next randData' h
          have := drawBlock_length hdraw
          omega

theorem readRspBuf_safe (us : UInt64) {randData : List Bytes} {i : ℕ} (msg : Msg)
    (hi : i ≤ randData.length) : (readRspBuf pb verbosity us randData i msg).Safe := by
  unfold readRspBuf
  split
  · exact safe_addToMsg pb verbosity _ msg
  · rw [Checked.safe_bind]
    exact ⟨safe_vecAt (by omega), fun _ _ => safe_addToMsg pb verbosity _ msg⟩

/-- The read creator indexes the blocks it drew and nothing else. -/
theorem ReadRspPayloadCreator.fill_safe (env : ServerEnv) (blockSize blockCount : Int32)
    (msg : Msg) : (ReadRspPayloadCreator.fill pb verbosity env blockSize blockCount msg).Safe := by
  rw [ReadRspPayloadCreator.fill, Checked.safe_bind]
  refine ⟨Checked.safe_forRange (P := fun _ _ => True) _ _ _ trivial
    (fun j s _ _ _ => drawBlock_safe env.rnd blockSize j s) (fun _ _ _ _ _ _ _ => trivial), ?_⟩
  intro randData hdraw
  have hlen := drawBlocks_length _ _ _ _ hdraw
  rw [Checked.safe_bind]
  refine ⟨safe_intAdd _ _, fun bound hbound => ?_⟩
  -- the loop bound is the count plus one, so the index stays below the number of blocks
  have hle : bound.toInt.toNat ≤ randData.length + 1 := by
    have hhigh := Int32.toInt_lt blockCount
    rcases lt_or_ge blockCount.toInt (2 ^ 31 - 1) with hlt | hge
    · obtain ⟨b, hb, hval⟩ := intAdd_one hlt
      rw [hb] at hbound
      cases hbound
      rw [List.length_nil] at hlen
      omega
    · rw [intAdd_one_overflow (by omega)] at hbound
      cases hbound
  exact Checked.safe_forRange (P := fun _ _ => True) _ _ _ trivial
    (fun j s _ hj _ => readRspBuf_safe env.deltaUs s (by omega))
    (fun _ _ _ _ _ _ _ => trivial)

theorem parseBuf_safe (buf : DataBuf) : (parseBuf pb buf).Safe := by
  rw [parseBuf, Checked.safe_bind]
  exact ⟨safe_toStr buf, fun _ _ => Checked.safe_pure _⟩

theorem echoDump_safe_iff {origMsg msg : Msg} {i : ℕ} {orig out : DataBuf}
    (horig : origMsg[i]? = some orig) (hout : msg[i]? = some out) :
    (echoDump origMsg msg i).Safe ↔ dumpLen orig ≤ out.length := by
  have hlt := (List.getElem?_eq_some_iff.mp horig).1
  have hlt' := (List.getElem?_eq_some_iff.mp hout).1
  have hdump : dumpLen orig ≤ orig.length := min_le_right _ _
  rw [echoDump, Checked.safe_bind_ok (vecAt_val horig), Checked.safe_bind_ok (bytesToHex_val _ _),
    Checked.safe_bind_ok (vecAt_val hout), Checked.safe_bind_ok (bytesToHex_val _ _),
    safe_bytesToHex, safe_bytesToHex]
  simp only [safe_vecAt hlt, safe_vecAt hlt', hdump, Checked.safe_pure, true_and, and_true]

/-- One iteration of the echo creator: only the dump in the second one is at risk. -/
theorem echoRspBuf_safe_iff (pb : Protobuf) (verbosity : ℕ) (us : UInt64) (origMsg : Msg) (i : ℕ)
    (msg : Msg) {orig : DataBuf} (horig : origMsg[i]? = some orig) (hmsg : msg.length = i) :
    (echoRspBuf pb verbosity us origMsg (origMsg.map pb.par) i msg).Safe ↔
      (i = 1 → LogLevel.stringMem ≤ verbosity →
        dumpLen orig ≤ (pb.ser (echoPayload pb us origMsg i)).length) := by
  have hi := (List.getElem?_eq_some_iff.mp horig).1
  have hout : (msg ++ [pb.ser (echoPayload pb us origMsg i)])[i]?
      = some (pb.ser (echoPayload pb us origMsg i)) := by
    rw [← hmsg, List.getElem?_concat_length]
  have hpayload : (echoRspPayload us (origMsg.map pb.par) i).Safe := by
    unfold echoRspPayload
    split
    · exact Checked.safe_pure _
    · exact safe_vecAt (by simpa using hi)
  rw [echoRspBuf, Checked.safe_bind_ok (echoRspPayload_val us origMsg i hi),
    Checked.safe_bind_ok (addToMsg_val pb verbosity _ msg),
    Checked.safe_bind_ok (vlogIf_val fun _ => echoDump_val horig hout), safe_vlogIf,
    echoDump_safe_iff horig hout]
  simp only [hpayload, safe_addToMsg, Checked.safe_pure, true_and, and_true]

/-- The iterations of the echo creator after the second are safe. -/
theorem echoLoop_safe (pb : Protobuf) (verbosity : ℕ) (us : UInt64) (origMsg : Msg) (n : ℕ)
    (msg : Msg) (hn : 2 + n ≤ origMsg.length) (hmsg : msg.length = 2) :
    (forRange (echoRspBuf pb verbosity us origMsg (origMsg.map pb.par)) 2 n msg).Safe := by
  refine Checked.safe_forRange (P := fun j s => s.length = j) n 2 msg hmsg ?_ ?_
  · intro j s hj hlt hs
    rw [echoRspBuf_safe_iff pb verbosity us origMsg j s (List.getElem?_eq_getElem (by omega)) hs]
    omega
  · intro j s s' hj hlt hs hval
    rw [echoRspBuf_val us origMsg j s (by omega) (by omega)] at hval
    cases hval
    simp [hs]

/-- The echo creator's reads: at the verbose level the first data buffer of the request must
re-serialize to as many bytes as the dump shows of it. -/
theorem EchoRspPayloadCreator.fill_safe_iff (env : ServerEnv) (first : DataBuf) (rest : Msg) :
    (EchoRspPayloadCreator.fill pb verbosity env (first :: rest) []).Safe ↔
      (LogLevel.stringMem ≤ verbosity → ∀ second, rest[0]? = some second →
        dumpLen second ≤ (pb.ser (pb.par second)).length) := by
  have hcollect : (Checked.collect (parseBuf pb) (first :: rest)).val
      = .ok ((first :: rest).map pb.par) :=
    Checked.collect_map (first :: rest) fun buf _ => parseBuf_val buf
  have hzero := echoRspBuf_safe_iff pb verbosity env.deltaUs (first :: rest) 0 [] rfl rfl
  have hzeroVal := @echoRspBuf_val pb verbosity env.deltaUs (first :: rest) 0 [] (by simp) le_rfl
  rw [EchoRspPayloadCreator.fill, Checked.safe_bind_ok hcollect, List.length_map, List.length_cons,
    forRange, Checked.safe_bind_ok hzeroVal, hzero]
  simp only [Checked.safe_collect (first :: rest) fun buf _ => parseBuf_safe buf, true_and,
    Nat.zero_ne_one, false_implies]
  cases rest with
  | nil => simp [forRange]
  | cons second rest =>
      set orig := first :: second :: rest with horig
      have hone := echoRspBuf_safe_iff pb verbosity env.deltaUs orig 1
        [pb.ser (echoPayload pb env.deltaUs orig 0)] (show orig[1]? = some second from rfl) rfl
      have honeVal := @echoRspBuf_val pb verbosity env.deltaUs orig 1
        [pb.ser (echoPayload pb env.deltaUs orig 0)] (by simp [horig]) le_rfl
      have hrest := echoLoop_safe pb verbosity env.deltaUs orig rest.length
        ([pb.ser (echoPayload pb env.deltaUs orig 0)]
          ++ [pb.ser (echoPayload pb env.deltaUs orig 1)]) (by simp [horig]; omega) rfl
      rw [List.length_cons, forRange, List.nil_append, Checked.safe_bind_ok honeVal, hone]
      simp only [hrest, and_true, true_implies, List.getElem?_cons_zero, Option.some.injEq,
        forall_eq']
      rfl

/-! ### The server -/

/-- The server's reads at the verbose level: the first buffer has a byte to show, and the first data
buffer of an echo request does not shrink below the length of its dump. -/
def ServerInBounds (pb : Protobuf) (verbosity : ℕ) (req : Msg) : Prop :=
  LogLevel.stringMem ≤ verbosity →
    req[0]? ≠ some [] ∧
      ∀ h second, HasReqHdr pb req .echo h → req[1]? = some second →
        min 100 second.length ≤ (pb.ser (pb.par second)).length

theorem serverDispatch_safe_iff (env : ServerEnv) (hdr : Header) (first : DataBuf) (rest : Msg) :
    (serverDispatch pb verbosity env hdr (first :: rest) []).Safe ↔
      (LogLevel.stringMem ≤ verbosity → ∀ h second, hdr.hdr = .req .echo h →
        rest[0]? = some second → min 100 second.length ≤ (pb.ser (pb.par second)).length) := by
  unfold serverDispatch
  cases hkind : hdr.hdr with
  | notSet => simp
  | rsp w h => simp
  | req w h =>
      cases w with
      | write => simp [WriteRspPayloadCreator.fill_safe]
      | read => simp [ReadRspPayloadCreator.fill_safe]
      | echo =>
          show (EchoRspPayloadCreator.fill pb verbosity env (first :: rest) []).Safe ↔ _
          rw [EchoRspPayloadCreator.fill_safe_iff]
          simp only [Hdr.req.injEq, true_and]
          exact ⟨fun hs hv _ second _ => hs hv second, fun hs hv second => hs hv h second rfl⟩

theorem serverRcvFn_safe_iff (env : ServerEnv) (req : Msg) :
    (serverRcvFn pb verbosity env req []).Safe ↔ ServerInBounds pb verbosity req := by
  unfold ServerInBounds
  cases req with
  | nil => simp [serverRcvFn]
  | cons first rest =>
      have hfirst : 1 ≤ first.length ↔ (first :: rest)[0]? ≠ some [] := by
        cases first <;> simp
      rw [serverRcvFn, if_neg (by simp),
        Checked.safe_bind_ok (vecAt_val (show (first :: rest)[0]? = some first from rfl)),
        Checked.safe_bind_ok (vlog_val (bytesToHex_val first 1)), safe_vlog, safe_bytesToHex,
        Checked.safe_bind_ok (toStr_val first),
        Checked.safe_bind_ok (vlogIf_val fun _ => ⟨_, bytesToHex_val first _⟩), safe_vlogIf,
        safe_bytesToHex]
      simp only [safe_vecAt (show 0 < (first :: rest).length by simp), safe_toStr, le_refl,
        implies_true, true_and, hfirst, List.getElem?_cons_succ]
      cases hhdr : (pb.par first).hdr? with
      | none => simp [HasReqHdr, hhdr]
      | some hdr =>
          simp only [serverDispatch_safe_iff, hasReqHdr_cons_iff hhdr]
          exact ⟨fun h hv => ⟨h.1 hv, h.2 hv⟩, fun h => ⟨fun hv => (h hv).1, fun hv => (h hv).2⟩⟩

/-- **Bounds safety.**  Every read the two programs make of a message a peer delivers, to the client
as the reply to `req`, to the server as the request `incoming`, is inside its buffer exactly when
the reply's buffers are long enough for the validator and, at the verbose level, the request's for
the server's log. -/
theorem reads_in_bounds_iff (pb : Protobuf) (clientVerbosity serverVerbosity : ℕ) (after : Beyond)
    (env : ServerEnv) (req reply incoming : Msg) :
    ((getRemoteProcessTimeUs pb reply).Safe ∧
        (EchoReplyValidator.isValid clientVerbosity after req reply).Safe ∧
        (serverRcvFn pb serverVerbosity env incoming []).Safe) ↔
      ValidatorInBounds req reply ∧ ServerInBounds pb serverVerbosity incoming := by
  rw [isValid_safe_iff, serverRcvFn_safe_iff]
  simp only [getRemoteProcessTimeUs_safe, true_and]

/-- A reply that is one byte short is read past its end. -/
theorem isValid_reads_past_end :
    ¬ ((getRemoteProcessTimeUs wireProtobuf [[0], [1]]).Safe ∧
        (EchoReplyValidator.isValid 0 (fun _ _ => 0) [[0], [1, 2]] [[0], [1]]).Safe ∧
        (serverRcvFn wireProtobuf 0 ⟨fun _ _ => 0, 0, 0⟩ [] []).Safe) := by
  rintro ⟨-, hvalid, -⟩
  exact absurd hvalid (by decide)

end RpcTransport

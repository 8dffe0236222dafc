import RpcTransport.Workloads

/-!
# Input the runtime cannot parse

Neither program looks at the result of `ParseFromString`.  A parse that fails leaves the fields
merged before the defect, so whether a damaged buffer is noticed depends on what was merged.

* `malformed_refused_iff` — a first buffer that does not parse is refused, by the server and by the
  client, exactly when what the failed parse left gives them nothing to act on;
* `trailing_damage_accepted` — a complete header followed by bytes that are no field is acted upon;
* `echo_unaltered_iff` — the echo of a request is the request exactly when each of its data buffers
  is the canonical encoding of the payload it parses as.
-/

namespace RpcTransport

variable {pb : Protobuf}

/-- A call that ends in a C++ exception. -/
def Throws {α : Type} (r : Except Fault α) : Prop := ∃ e, r = .error e ∧ e.IsException

theorem throws_exception {α : Type} (what : String) :
    Throws (.error (.exception what) : Except Fault α) := ⟨_, rfl, trivial⟩

theorem not_throws_ok {α : Type} (a : α) : ¬ Throws (.ok a) := by
  rintro ⟨e, he, -⟩
  cases he

/-! ### A malformed header -/

/-- Server and client refuse a message whose first buffer is `b`, if `b` does not parse. -/
def MalformedRefused (pb : Protobuf) (verbosity : ℕ) (env : ServerEnv) (b : Bytes)
    (rest rsp : Msg) : Prop :=
  (pb.parseFromString b).1 = false →
    Throws (serverRcvFn pb verbosity env (b :: rest) rsp).val ∧
    Throws (getRemoteProcessTimeUs pb (b :: rest)).val

/-- The server does not act on the header: it is no request, or a read request for blocks of
negative size, whose buffers cannot be allocated. -/
def Header.RefusedByServer (hdr : Header) : Prop :=
  match hdr.hdr with
  | .req .read h => 0 < h.bufCount.toInt ∧ h.bufSize.toInt < 0
  | .req _ _ => False
  | _ => True

/-- The client does not act on the header: it is no response. -/
def Header.RefusedByClient (hdr : Header) : Prop :=
  match hdr.hdr with
  | .rsp _ _ => False
  | _ => True

/-- What the parse of `b` leaves has no header, or one that neither side acts on. -/
def LeavesNothing (pb : Protobuf) (b : Bytes) : Prop :=
  ∀ hdr, (pb.par b).hdr? = some hdr → hdr.RefusedByServer ∧ hdr.RefusedByClient

/-- The read creator throws only where it cannot allocate. -/
theorem ReadRspPayloadCreator.fill_throws_iff {verbosity : ℕ} (env : ServerEnv)
    (blockSize blockCount : Int32) (msg : Msg) :
    Throws (ReadRspPayloadCreator.fill pb verbosity env blockSize blockCount msg).val ↔
      0 < blockCount.toInt ∧ blockSize.toInt < 0 := by
  rw [ReadRspPayloadCreator.fill_val]
  split_ifs with hbad hmax hneg
  · exact ⟨fun _ => hbad, fun _ => ⟨_, rfl, trivial⟩⟩
  · refine ⟨?_, fun h => absurd h hbad⟩
    rintro ⟨e, he, hexc⟩
    cases he
    exact hexc.elim
  · exact ⟨fun h => absurd h (not_throws_ok _), fun h => absurd h hbad⟩
  · exact ⟨fun h => absurd h (not_throws_ok _), fun h => absurd h hbad⟩

/-- **The server throws** unless it found a request header it serves, parsed or not. -/
theorem serverRcvFn_throws_iff {verbosity : ℕ} (env : ServerEnv) (b : Bytes) (rest rsp : Msg) :
    Throws (serverRcvFn pb verbosity env (b :: rest) rsp).val ↔
      ∀ hdr, (pb.par b).hdr? = some hdr → hdr.RefusedByServer := by
  cases hpar : (pb.par b).hdr? with
  | none =>
      rw [serverRcvFn_val, hpar]
      simp [throws_exception]
  | some hdr =>
      simp only [Option.some.injEq, forall_eq', Header.RefusedByServer]
      cases hkind : hdr.hdr with
      | notSet =>
          rw [serverRcvFn_val, hpar]
          simp [serverDispatch, hkind, throws_exception]
      | rsp w h =>
          rw [serverRcvFn_val, hpar]
          simp [serverDispatch, hkind, throws_exception]
      | req w h =>
          rw [serverRcvFn_reqHdr env hpar hkind]
          cases w with
          | write => simp [not_throws_ok]
          | echo => simp [not_throws_ok]
          | read => exact ReadRspPayloadCreator.fill_throws_iff env _ _ _

/-- **The client throws** unless it found a response header, parsed or not. -/
theorem getRemoteProcessTimeUs_throws_iff (b : Bytes) (rest : Msg) :
    Throws (getRemoteProcessTimeUs pb (b :: rest)).val ↔
      ∀ hdr, (pb.par b).hdr? = some hdr → hdr.RefusedByClient := by
  rw [getRemoteProcessTimeUs, if_neg (by simp),
    Checked.val_bind_ok (vecAt_val (show (b :: rest)[0]? = some b from rfl)),
    Checked.val_bind_ok (toStr_val b)]
  cases hpar : (pb.par b).hdr? with
  | none => simp [throws_exception]
  | some hdr =>
      simp only [Option.some.injEq, forall_eq', Header.RefusedByClient]
      cases hkind : hdr.hdr with
      | notSet => simp [throws_exception]
      | req w h => simp [throws_exception]
      | rsp w h => simp [not_throws_ok]

/-- **When a malformed header is refused.**  For every byte string, every list of further buffers
and every response so far: exactly when the string parses after all, or the failed parse left no
header, a header of no kind, or a read request that cannot be allocated. -/
theorem malformed_refused_iff (verbosity : ℕ) (env : ServerEnv) (b : Bytes) (rest rsp : Msg) :
    MalformedRefused pb verbosity env b rest rsp ↔
      (pb.parseFromString b).1 = true ∨ LeavesNothing pb b := by
  have hboth : LeavesNothing pb b ↔
      (∀ hdr, (pb.par b).hdr? = some hdr → hdr.RefusedByServer) ∧
      ∀ hdr, (pb.par b).hdr? = some hdr → hdr.RefusedByClient := by
    constructor
    · intro h
      exact ⟨fun hdr hpar => (h hdr hpar).1, fun hdr hpar => (h hdr hpar).2⟩
    · intro h hdr hpar
      exact ⟨h.1 hdr hpar, h.2 hdr hpar⟩
  rw [MalformedRefused, serverRcvFn_throws_iff, getRemoteProcessTimeUs_throws_iff, ← hboth]
  cases (pb.parseFromString b).1 <;> simp

/-- **Damage behind a complete header is acted upon.**  The parse fails, and leaves the header the
sender wrote: a request the server serves, or a response the client takes the time of. -/
theorem trailing_damage_accepted {p : Payload} {hdr : Header} (hplain : p.Plain)
    (hsize : p.byteSize ≤ maxInt) (hhdr : p.hdr? = some hdr)
    (hacted : ¬ (hdr.RefusedByServer ∧ hdr.RefusedByClient)) (junk : Bytes) (hne : junk ≠ [])
    (hjunk : Wire.readField junk = none) :
    (wireProtobuf.parseFromString (wireProtobuf.ser p ++ junk)).1 = false ∧
      ¬ LeavesNothing wireProtobuf (wireProtobuf.ser p ++ junk) := by
  have hparse := wireProtobuf_trailing hplain hsize hne hjunk
  refine ⟨congrArg Prod.fst hparse, fun hnone => hacted (hnone hdr ?_)⟩
  rw [Protobuf.par, hparse]
  exact hhdr

/-- A write request header with one byte behind it that begins no field. -/
theorem malformed_write_accepted :
    ¬ MalformedRefused wireProtobuf 0 ⟨fun _ _ => 0, 0, 0⟩
        (wireProtobuf.ser (.reqHdr .write 0 0) ++ [0xff]) [] [] := by
  obtain ⟨hfail, hacted⟩ := trailing_damage_accepted (p := .reqHdr .write 0 0)
    (plain_reqHdr _ _ _) (reqHdr_fits _ _ _) rfl (fun h => h.1) [0xff] (by simp)
    (by decide)
  intro hrefused
  refine hacted fun hdr hpar => ?_
  obtain ⟨hserver, hclient⟩ := hrefused hfail
  rw [serverRcvFn_throws_iff] at hserver
  rw [getRemoteProcessTimeUs_throws_iff] at hclient
  exact ⟨hserver hdr hpar, hclient hdr hpar⟩

/-! ### Echoes -/

/-- `ServerRcvFn` throws, or returns as many buffers as it was given and after the header the very
same ones. -/
def EchoUnaltered (pb : Protobuf) (verbosity : ℕ) (env : ServerEnv) (req : Msg) : Prop :=
  match (serverRcvFn pb verbosity env req []).val with
  | .ok rsp => rsp.length = req.length ∧ ∀ i, 1 ≤ i → rsp[i]? = req[i]?
  | .error e => e.IsException

/-- The buffer is the encoding the runtime itself writes of the payload it parses as. -/
def Canonical (pb : Protobuf) (buf : Bytes) : Prop := ∃ p, pb.Decodes buf p ∧ pb.ser p = buf

theorem HasReqHdr.serverRcvFn_echo {verbosity : ℕ} {env : ServerEnv} {req : Msg} {h : ReqHeader}
    (hreq : HasReqHdr pb req .echo h) (rsp : Msg) :
    (serverRcvFn pb verbosity env req rsp).val = .ok (rsp ++ echoBufs pb env.deltaUs req) := by
  obtain ⟨first, rest, hdr, rfl, hpar, hkind⟩ := hreq
  exact serverRcvFn_reqHdr env hpar hkind rest rsp

/-- Two messages agree after their headers exactly when the rest of them is the same list. -/
theorem getElem?_tail_iff {xs ys : Msg} :
    (∀ i, 1 ≤ i → xs[i]? = ys[i]?) ↔ xs.drop 1 = ys.drop 1 := by
  constructor
  · intro h
    apply List.ext_getElem?
    intro i
    rw [List.getElem?_drop, List.getElem?_drop]
    exact h (1 + i) (by omega)
  · intro h i hi
    have hget := congrArg (fun zs => zs[i - 1]?) h
    simp only [List.getElem?_drop] at hget
    rwa [show 1 + (i - 1) = i by omega] at hget

theorem map_eq_self_iff {α : Type} {f : α → α} {xs : List α} :
    xs.map f = xs ↔ ∀ x ∈ xs, f x = x := by
  induction xs with
  | nil => simp
  | cons x xs ih => simp [ih]

/-- A buffer survives parsing and re-serialization exactly when it is canonical, given that what
the runtime writes of a parsed message parses. -/
theorem ser_par_eq_iff (hparse : ∀ bs, (pb.parseFromString (pb.ser (pb.par bs))).1 = true)
    (buf : Bytes) : pb.ser (pb.par buf) = buf ↔ Canonical pb buf := by
  constructor
  · intro hsame
    have hflag := hparse buf
    rw [hsame] at hflag
    exact ⟨pb.par buf, Prod.ext hflag rfl, hsame⟩
  · rintro ⟨p, hdec, hser⟩
    rw [hdec.par_eq, hser]

/-- **When an echo is the request.**  For every request that starts with an echo header and every
list of further buffers: exactly when each of them is a canonical encoding. -/
theorem echo_unaltered_iff (hparse : ∀ bs, (pb.parseFromString (pb.ser (pb.par bs))).1 = true)
    (verbosity : ℕ) (env : ServerEnv) {req : Msg} {h : ReqHeader}
    (hreq : HasReqHdr pb req .echo h) :
    EchoUnaltered pb verbosity env req ↔ ∀ buf ∈ req.drop 1, Canonical pb buf := by
  have hne : req ≠ [] := by
    obtain ⟨first, rest, -, rfl, -⟩ := hreq
    simp
  rw [EchoUnaltered, hreq.serverRcvFn_echo []]
  simp only [List.nil_append, echoBufs_length _ hne, true_and]
  rw [getElem?_tail_iff, echoBufs, List.drop_succ_cons, List.drop_zero, map_eq_self_iff]
  refine forall₂_congr fun buf _ => ?_
  exact ser_par_eq_iff hparse buf

theorem hasReqHdr_ser (hpb : pb.Lawful) (w : Workload) (blockSize blockCount : Int32)
    (rest : Msg) :
    HasReqHdr pb (pb.ser (.reqHdr w blockCount blockSize) :: rest) w
      { bufCount := blockCount, bufSize := blockSize } := by
  have hdec := (hpb.decodes_reqHdr w blockCount blockSize).par_eq
  exact ⟨_, rest, _, rfl, by rw [hdec]; rfl, rfl⟩

/-- An echo request of one block. -/
theorem echo_unaltered_block :
    EchoUnaltered wireProtobuf 0 ⟨fun _ _ => 0, 0, 0⟩
        [wireProtobuf.ser (.reqHdr .echo 1 1), wireProtobuf.ser (.dataOf [7])] ↔
      ∀ buf ∈ [wireProtobuf.ser (.reqHdr .echo 1 1), wireProtobuf.ser (.dataOf [7])].drop 1,
        Canonical wireProtobuf buf :=
  echo_unaltered_iff wireProtobuf_reparse 0 ⟨fun _ _ => 0, 0, 0⟩
    (hasReqHdr_ser wireProtobuf_lawful .echo 1 1 [wireProtobuf.ser (.dataOf [7])])

/-- A data buffer that does not parse comes back empty, and no error is reported. -/
theorem echo_drops_malformed :
    ¬ EchoUnaltered wireProtobuf 0 ⟨fun _ _ => 0, 0, 0⟩
        [wireProtobuf.ser (.reqHdr .echo 1 1), [0xff]] := by
  have hreq := hasReqHdr_ser wireProtobuf_lawful .echo 1 1 [[0xff]]
  intro hecho
  rw [EchoUnaltered, hreq.serverRcvFn_echo []] at hecho
  have hbuf := hecho.2 1 le_rfl
  revert hbuf
  decide

end RpcTransport

import RpcTransport.Lib.Wire
import Mathlib.Data.Int.Order.Basic

/-!
# The messages of `rt.proto` and the protobuf runtime

A buffer of the client and the server is a serialized `Payload`: a header of one of six kinds, or a
block of data.  The types below are those of `rt.proto`; a oneof is an inductive type whose
`notSet` is the state before any member is set.  The three request headers have the same two
fields, the three reply headers the same one, so the members of the header oneof are two families
indexed by the workload.  Every message also keeps the fields a parser did not know, as the bytes
they are written back as.

The runtime itself is not part of the repository: `Protobuf` is the pair of functions the programs
call, and `Protobuf.Lawful` is what its documentation promises about them.
-/

namespace RpcTransport

abbrev Bytes := Wire.Bytes

/-- The three workloads of the client. -/
inductive Workload
  | write
  | read
  | echo
  deriving DecidableEq, Repr

/-- `ReadReqHeader`, `WriteReqHeader` and `EchoReqHeader`. -/
structure ReqHeader where
  bufCount : Int32 := 0
  bufSize : Int32 := 0
  unknown : Bytes := []
  deriving DecidableEq

/-- `ReadRspHeader`, `WriteRspHeader` and `EchoRspHeader`. -/
structure RspHeader where
  msgProcessTimeUs : UInt64 := 0
  unknown : Bytes := []
  deriving DecidableEq

/-- The oneof of `Header`: `w_req_hdr`, `r_req_hdr`, `e_req_hdr` and their replies. -/
inductive Hdr
  | notSet
  | req (w : Workload) (h : ReqHeader)
  | rsp (w : Workload) (h : RspHeader)
  deriving DecidableEq

structure Header where
  hdr : Hdr := .notSet
  unknown : Bytes := []
  deriving DecidableEq

structure Data where
  data : Bytes := []
  unknown : Bytes := []
  deriving DecidableEq

/-- The oneof of `Payload`. -/
inductive PayloadCase
  | notSet
  | hdr (h : Header)
  | data (d : Data)
  deriving DecidableEq

structure Payload where
  payload : PayloadCase := .notSet
  unknown : Bytes := []
  deriving DecidableEq

namespace Payload

/-- `payload.mutable_hdr()->mutable_x_req_hdr()` with both fields set. -/
def reqHdr (w : Workload) (bufCount bufSize : Int32) : Payload :=
  { payload := .hdr { hdr := .req w { bufCount, bufSize } } }

/-- `payload.mutable_hdr()->mutable_x_rsp_hdr()` with the time set. -/
def rspHdr (w : Workload) (us : UInt64) : Payload :=
  { payload := .hdr { hdr := .rsp w { msgProcessTimeUs := us } } }

/-- `payload.mutable_data()->set_data(buf, len)`. -/
def dataOf (bytes : Bytes) : Payload :=
  { payload := .data { data := bytes } }

/-- `payload.hdr()` when `payload.has_hdr()`. -/
def hdr? (p : Payload) : Option Header :=
  match p.payload with
  | .hdr h => some h
  | _ => none

end Payload

/-! ### Encoded sizes -/

/-- The bytes of a varint field with a one-byte tag; a default value is not written. -/
def varintFieldSize (n : ℕ) : ℕ := if n = 0 then 0 else 1 + (Wire.varint n).length

/-- The bytes of a length-delimited field with a one-byte tag. -/
def lenFieldSize (n : ℕ) : ℕ := 1 + (Wire.varint n).length + n

/-- An `int32` goes on the wire sign-extended to 64 bits. -/
def int32Varint (v : Int32) : ℕ := (v.toInt % 2 ^ 64).toNat

def ReqHeader.byteSize (h : ReqHeader) : ℕ :=
  varintFieldSize (int32Varint h.bufCount) + varintFieldSize (int32Varint h.bufSize)
    + h.unknown.length

def RspHeader.byteSize (h : RspHeader) : ℕ :=
  varintFieldSize h.msgProcessTimeUs.toNat + h.unknown.length

def Header.byteSize (h : Header) : ℕ :=
  (match h.hdr with
    | .notSet => 0
    | .req _ r => lenFieldSize r.byteSize
    | .rsp _ r => lenFieldSize r.byteSize) + h.unknown.length

def Data.byteSize (d : Data) : ℕ :=
  (if d.data = [] then 0 else lenFieldSize d.data.length) + d.unknown.length

/-- `ByteSizeLong()`. -/
def Payload.byteSize (p : Payload) : ℕ :=
  (match p.payload with
    | .notSet => 0
    | .hdr h => lenFieldSize h.byteSize
    | .data d => lenFieldSize d.byteSize) + p.unknown.length

/-- The encoded size of a data payload of `n` bytes. -/
def dataPayloadSize (n : ℕ) : ℕ := lenFieldSize (if n = 0 then 0 else lenFieldSize n)

theorem byteSize_dataOf (bytes : Bytes) :
    (Payload.dataOf bytes).byteSize = dataPayloadSize bytes.length := by
  simp [Payload.dataOf, Payload.byteSize, Data.byteSize, dataPayloadSize]

/-! ### The runtime -/

/-- No field the schema does not name, as in every message the programs build themselves. -/
def Payload.Plain (p : Payload) : Prop :=
  p.unknown = [] ∧
  match p.payload with
  | .notSet => True
  | .hdr h => h.unknown = [] ∧
      match h.hdr with
      | .notSet => True
      | .req _ r => r.unknown = []
      | .rsp _ r => r.unknown = []
  | .data d => d.unknown = []

theorem plain_reqHdr (w : Workload) (c s : Int32) : (Payload.reqHdr w c s).Plain := ⟨rfl, rfl, rfl⟩

theorem plain_rspHdr (w : Workload) (us : UInt64) : (Payload.rspHdr w us).Plain := ⟨rfl, rfl, rfl⟩

theorem plain_dataOf (bytes : Bytes) : (Payload.dataOf bytes).Plain := ⟨rfl, rfl⟩

/-- `INT_MAX`, the largest message the runtime writes. -/
def maxInt : ℕ := 2 ^ 31 - 1

/-- The two functions of the runtime.  Both report success as a flag that the programs drop;
`SerializeToString` leaves a string, `ParseFromString` a message. -/
structure Protobuf where
  serializeToString : Payload → Bool × Bytes
  parseFromString : Bytes → Bool × Payload

/-- What the runtime's documentation says of them: a message of up to `INT_MAX` encoded bytes is
written in exactly its encoded size and read back as it was, a larger one is refused and leaves the
string empty. -/
structure Protobuf.Lawful (pb : Protobuf) : Prop where
  serialize_fits : ∀ p : Payload, p.byteSize ≤ maxInt →
    (pb.serializeToString p).1 = true ∧ (pb.serializeToString p).2.length = p.byteSize
  serialize_exceeds : ∀ p : Payload, maxInt < p.byteSize → pb.serializeToString p = (false, [])
  parse_serialize : ∀ p : Payload, p.Plain → p.byteSize ≤ maxInt →
    pb.parseFromString (pb.serializeToString p).2 = (true, p)

namespace Protobuf

variable (pb : Protobuf)

/-- The string `SerializeToString` leaves. -/
def ser (p : Payload) : Bytes := (pb.serializeToString p).2

/-- The message `ParseFromString` leaves, whether or not it succeeded. -/
def par (bs : Bytes) : Payload := (pb.parseFromString bs).2

/-- A buffer parses, without error, as this payload. -/
def Decodes (bs : Bytes) (p : Payload) : Prop := pb.parseFromString bs = (true, p)

variable {pb}

theorem Decodes.par_eq {bs : Bytes} {p : Payload} (h : pb.Decodes bs p) : pb.par bs = p := by
  rw [par, h]

theorem Lawful.decodes (h : pb.Lawful) {p : Payload} (hplain : p.Plain)
    (hsize : p.byteSize ≤ maxInt) : pb.Decodes (pb.ser p) p :=
  h.parse_serialize p hplain hsize

theorem Lawful.ser_length (h : pb.Lawful) {p : Payload} (hsize : p.byteSize ≤ maxInt) :
    (pb.ser p).length = p.byteSize :=
  (h.serialize_fits p hsize).2

theorem Lawful.ser_exceeds (h : pb.Lawful) {p : Payload} (hsize : maxInt < p.byteSize) :
    pb.ser p = [] := by
  rw [ser, h.serialize_exceeds p hsize]

end Protobuf

/-! ### Headers are small, payloads are not empty -/

theorem int32Varint_lt (v : Int32) : int32Varint v < 2 ^ 64 := by
  have hnonneg := Int.emod_nonneg v.toInt (show (2 ^ 64 : ℤ) ≠ 0 by norm_num)
  have hlt := Int.emod_lt_of_pos v.toInt (show (0 : ℤ) < 2 ^ 64 by norm_num)
  unfold int32Varint
  omega

theorem varintFieldSize_le {n : ℕ} (h : n < 2 ^ 64) : varintFieldSize n ≤ 11 := by
  unfold varintFieldSize
  split
  · omega
  · have := Wire.varint_length_le (n := n) (j := 9) (lt_trans h (by norm_num))
    omega

theorem lenFieldSize_le {n : ℕ} (h : n < 128) : lenFieldSize n ≤ n + 2 := by
  have := Wire.varint_length_one h
  unfold lenFieldSize
  omega

theorem byteSize_reqHdr_le (w : Workload) (c s : Int32) : (Payload.reqHdr w c s).byteSize ≤ 26 := by
  have hc := varintFieldSize_le (int32Varint_lt c)
  have hs := varintFieldSize_le (int32Varint_lt s)
  set n := varintFieldSize (int32Varint c) + varintFieldSize (int32Varint s) with hn
  have h1 := lenFieldSize_le (n := n) (by omega)
  have h2 := lenFieldSize_le (n := lenFieldSize n) (by omega)
  simp only [Payload.reqHdr, Payload.byteSize, Header.byteSize, ReqHeader.byteSize,
    List.length_nil, Nat.add_zero, ← hn]
  omega

theorem byteSize_rspHdr_le (w : Workload) (us : UInt64) :
    (Payload.rspHdr w us).byteSize ≤ 15 := by
  have hu := varintFieldSize_le us.toNat_lt
  set n := varintFieldSize us.toNat with hn
  have h1 := lenFieldSize_le (n := n) (by omega)
  have h2 := lenFieldSize_le (n := lenFieldSize n) (by omega)
  simp only [Payload.rspHdr, Payload.byteSize, Header.byteSize, RspHeader.byteSize,
    List.length_nil, Nat.add_zero, ← hn]
  omega

theorem reqHdr_fits (w : Workload) (c s : Int32) : (Payload.reqHdr w c s).byteSize ≤ maxInt :=
  (byteSize_reqHdr_le w c s).trans (by decide)

theorem rspHdr_fits (w : Workload) (us : UInt64) : (Payload.rspHdr w us).byteSize ≤ maxInt :=
  (byteSize_rspHdr_le w us).trans (by decide)

/-- Headers always fit, and decode to themselves. -/
theorem Protobuf.Lawful.decodes_reqHdr {pb : Protobuf} (hpb : pb.Lawful) (w : Workload)
    (c s : Int32) : pb.Decodes (pb.ser (.reqHdr w c s)) (.reqHdr w c s) :=
  hpb.decodes (plain_reqHdr w c s) (reqHdr_fits w c s)

theorem Protobuf.Lawful.decodes_rspHdr {pb : Protobuf} (hpb : pb.Lawful) (w : Workload)
    (us : UInt64) : pb.Decodes (pb.ser (.rspHdr w us)) (.rspHdr w us) :=
  hpb.decodes (plain_rspHdr w us) (rspHdr_fits w us)

/-- A payload whose oneof is set takes at least its tag. -/
theorem byteSize_pos {p : Payload} (h : p.payload ≠ .notSet) : 0 < p.byteSize := by
  unfold Payload.byteSize
  cases hp : p.payload with
  | notSet => exact absurd hp h
  | hdr _ => simp only [lenFieldSize]; omega
  | data _ => simp only [lenFieldSize]; omega

theorem Protobuf.Lawful.ser_ne_nil {pb : Protobuf} (h : pb.Lawful) {p : Payload}
    (hset : p.payload ≠ .notSet) (hsize : p.byteSize ≤ maxInt) : pb.ser p ≠ [] := by
  have hlen := h.ser_length hsize
  have hpos := byteSize_pos hset
  intro hnil
  rw [hnil, List.length_nil] at hlen
  omega

end RpcTransport

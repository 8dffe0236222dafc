import RpcTransport.Workloads

/-!
# How large a message may be

Every buffer travels in a message of its own, and a receiver takes in messages up to a limit that
the libraries set and that no program here raises: 4 MiB over gRPC, with protobuf or FlatBuffers
messages, and 64 MiB over Cap'n Proto.

* `MessageLimit.Carries` — the limit lets the headers and the blocks of a client through;
* `MessageLimit.Carries.request`, `MessageLimit.Carries.response` — and so every buffer of its
  requests and of the server's responses.
-/

namespace RpcTransport

/-- What the message with a buffer of `n` bytes counts for, and the most that a receiver takes
in. -/
structure MessageLimit where
  messageSize : ℕ → ℕ
  mono : Monotone messageSize
  max : ℕ

namespace MessageLimit

variable {lim : MessageLimit}

/-- A buffer of `n` bytes gets through. -/
def Takes (lim : MessageLimit) (n : ℕ) : Prop := lim.messageSize n ≤ lim.max

instance (lim : MessageLimit) (n : ℕ) : Decidable (lim.Takes n) := Nat.decLe _ _

theorem Takes.of_le {m n : ℕ} (h : lim.Takes n) (hle : m ≤ n) : lim.Takes m :=
  (lim.mono hle).trans h

/-- The size of a `grpc_transport.proto` message, whose one field is left out when it is empty. -/
def grpcSize (n : ℕ) : ℕ := if n = 0 then 0 else lenFieldSize n

theorem grpcSize_mono : Monotone grpcSize := by
  intro m n hle
  have hlen := Wire.varint_length_mono hle
  by_cases hm : m = 0
  · simp [grpcSize, hm]
  · have hn : n ≠ 0 := by omega
    simp only [grpcSize, if_neg hm, if_neg hn, lenFieldSize]
    omega

/-- gRPC's limit. -/
def grpc : MessageLimit := ⟨grpcSize, grpcSize_mono, 4194304⟩

/-- A bound for the size of a call of `sendChunk`: the words of the chunk, and 32 more for the call
around it. -/
def capnpSize (n : ℕ) : ℕ := 8 * ((n + 7) / 8 + 32)

theorem capnpSize_mono : Monotone capnpSize := by
  intro m n hle
  have hwords := Nat.div_le_div_right (c := 8) (Nat.add_le_add_right hle 7)
  simp only [capnpSize]
  omega

/-- Cap'n Proto's limit. -/
def capnp : MessageLimit := ⟨capnpSize, capnpSize_mono, 67108864⟩

/-- 8 MiB get through over Cap'n Proto only. -/
example : ¬ grpc.Takes 8388608 ∧ capnp.Takes 8388608 := by
  decide

/-- The most a header takes. -/
def maxHdrSize : ℕ := 26

/-- The headers and the blocks of a client with these flags get through. -/
structure Carries (lim : MessageLimit) (flags : ClientFlags) : Prop where
  hdr : lim.Takes maxHdrSize
  block : lim.Takes (dataPayloadSize flags.blockSize.toInt.toNat)

end MessageLimit

/-! ### The buffers of an exchange -/

variable {pb : Protobuf} {lim : MessageLimit} {flags : ClientFlags}

theorem Protobuf.Lawful.blockBufs_size (hpb : pb.Lawful) {rnd : Random} {first n len : ℕ}
    (hfits : dataPayloadSize len ≤ maxInt) :
    ∀ buf ∈ blockBufs pb rnd first n len, buf.length = dataPayloadSize len := by
  intro buf hbuf
  obtain ⟨i, -, rfl⟩ := List.mem_map.mp hbuf
  have hsize : (Payload.dataOf (randomBytes rnd i len)).byteSize = dataPayloadSize len := by
    rw [byteSize_dataOf, randomBytes_length]
  rw [hpb.ser_length (by rw [hsize]; exact hfits), hsize]

namespace MessageLimit.Carries

/-- **Every buffer of a request gets through.** -/
theorem request (h : lim.Carries flags) (hpb : pb.Lawful)
    (hfits : dataPayloadSize flags.blockSize.toInt.toNat ≤ maxInt) (w : Workload) (rnd : Random)
    (blockCount : Int32) :
    ∀ buf ∈ reqBufs pb w rnd flags.blockSize blockCount, lim.Takes buf.length := by
  intro buf hbuf
  rcases List.mem_cons.mp hbuf with rfl | hbuf
  · refine h.hdr.of_le ?_
    rw [hpb.ser_length (reqHdr_fits _ _ _)]
    exact byteSize_reqHdr_le _ _ _
  · split at hbuf
    · cases hbuf
    · rw [hpb.blockBufs_size hfits buf hbuf]
      exact h.block

/-- **And every buffer of the response.** -/
theorem response (h : lim.Carries flags) (hpb : pb.Lawful)
    (hfits : dataPayloadSize flags.blockSize.toInt.toNat ≤ maxInt) (w : Workload) (rnd : Random)
    (env : ServerEnv) (blockCount : Int32) :
    ∀ buf ∈ rspBufs pb w env flags.blockSize blockCount
      (reqBufs pb w rnd flags.blockSize blockCount), lim.Takes buf.length := by
  intro buf hbuf
  rcases List.mem_cons.mp hbuf with rfl | hbuf
  · refine h.hdr.of_le ?_
    rw [hpb.ser_length (rspHdr_fits _ _)]
    exact (byteSize_rspHdr_le _ _).trans (by decide)
  · cases w with
    | write => cases hbuf
    | read =>
        rw [hpb.blockBufs_size hfits buf hbuf]
        exact h.block
    | echo => exact h.request hpb hfits .echo rnd blockCount buf (List.mem_of_mem_drop hbuf)

end MessageLimit.Carries

end RpcTransport

import RpcTransport.Proto

/-!
# `rt.proto` on the wire

The documented proto3 encoding of the messages of `rt.proto`, over the schema-free wire format of
`Lib.Wire`, and the proof that it is a lawful runtime (`wireProtobuf_lawful`).  The theorems about
the programs hold for every lawful runtime; this one makes them concrete.

Serialization writes the set fields in the order of their numbers, leaves out default scalars and
appends the unknown fields.  Parsing merges field by field: a scalar is overwritten, a set
sub-message is merged into, another member of the oneof is replaced, anything else is kept as
unknown.  What a parse leaves can always be written and parsed again (`wireProtobuf_reparse`), and
bytes after a complete message make the parse fail without touching it (`wireProtobuf_trailing`).
-/

namespace RpcTransport

open Wire (Field Value encodeFields parse)

/-! ### Serialization -/

def varintField (num n : ℕ) : List Field := if n = 0 then [] else [⟨num, .varint n⟩]

def lenField (num : ℕ) (bs : Bytes) : List Field := [⟨num, .len bs⟩]

def ReqHeader.fields (h : ReqHeader) : List Field :=
  varintField 1 (int32Varint h.bufCount) ++ varintField 2 (int32Varint h.bufSize)

def ReqHeader.encode (h : ReqHeader) : Bytes := encodeFields h.fields ++ h.unknown

def RspHeader.fields (h : RspHeader) : List Field := varintField 1 h.msgProcessTimeUs.toNat

def RspHeader.encode (h : RspHeader) : Bytes := encodeFields h.fields ++ h.unknown

/-- The numbers of `r_req_hdr`, `w_req_hdr` and `e_req_hdr`. -/
def reqHdrNum : Workload → ℕ
  | .read => 1
  | .write => 2
  | .echo => 5

/-- The numbers of `r_rsp_hdr`, `w_rsp_hdr` and `e_rsp_hdr`. -/
def rspHdrNum : Workload → ℕ
  | .read => 3
  | .write => 4
  | .echo => 6

def Header.fields (h : Header) : List Field :=
  match h.hdr with
  | .notSet => []
  | .req w r => lenField (reqHdrNum w) r.encode
  | .rsp w r => lenField (rspHdrNum w) r.encode

def Header.encode (h : Header) : Bytes := encodeFields h.fields ++ h.unknown

def Data.fields (d : Data) : List Field := if d.data = [] then [] else lenField 1 d.data

def Data.encode (d : Data) : Bytes := encodeFields d.fields ++ d.unknown

def Payload.fields (p : Payload) : List Field :=
  match p.payload with
  | .notSet => []
  | .hdr h => lenField 1 h.encode
  | .data d => lenField 2 d.encode

def Payload.encode (p : Payload) : Bytes := encodeFields p.fields ++ p.unknown

/-! ### Parsing -/

def ReqHeader.merge (h : ReqHeader) : Field → Bool × ReqHeader
  | ⟨1, .varint n⟩ => (true, { h with bufCount := Int32.ofInt n })
  | ⟨2, .varint n⟩ => (true, { h with bufSize := Int32.ofInt n })
  | f => (true, { h with unknown := h.unknown ++ f.encode })

def RspHeader.merge (h : RspHeader) : Field → Bool × RspHeader
  | ⟨1, .varint n⟩ => (true, { h with msgProcessTimeUs := UInt64.ofNat n })
  | f => (true, { h with unknown := h.unknown ++ f.encode })

/-- Merge a request header into the oneof: into the member if it is set, over it otherwise. -/
def Header.mergeReq (h : Header) (w : Workload) (bs : Bytes) : Bool × Header :=
  let old := match h.hdr with
    | .req w' r => if w' = w then r else {}
    | _ => {}
  let res := parse ReqHeader.merge old bs
  (res.1, { h with hdr := .req w res.2 })

/-- Merge a reply header into the oneof. -/
def Header.mergeRsp (h : Header) (w : Workload) (bs : Bytes) : Bool × Header :=
  let old := match h.hdr with
    | .rsp w' r => if w' = w then r else {}
    | _ => {}
  let res := parse RspHeader.merge old bs
  (res.1, { h with hdr := .rsp w res.2 })

def Header.merge (h : Header) : Field → Bool × Header
  | ⟨1, .len bs⟩ => h.mergeReq .read bs
  | ⟨2, .len bs⟩ => h.mergeReq .write bs
  | ⟨3, .len bs⟩ => h.mergeRsp .read bs
  | ⟨4, .len bs⟩ => h.mergeRsp .write bs
  | ⟨5, .len bs⟩ => h.mergeReq .echo bs
  | ⟨6, .len bs⟩ => h.mergeRsp .echo bs
  | f => (true, { h with unknown := h.unknown ++ f.encode })

def Data.merge (d : Data) : Field → Bool × Data
  | ⟨1, .len bs⟩ => (true, { d with data := bs })
  | f => (true, { d with unknown := d.unknown ++ f.encode })

def Payload.merge (p : Payload) : Field → Bool × Payload
  | ⟨1, .len bs⟩ =>
      let old := match p.payload with
        | .hdr h => h
        | _ => {}
      let res := parse Header.merge old bs
      (res.1, { p with payload := .hdr res.2 })
  | ⟨2, .len bs⟩ =>
      let old := match p.payload with
        | .data d => d
        | _ => {}
      let res := parse Data.merge old bs
      (res.1, { p with payload := .data res.2 })
  | f => (true, { p with unknown := p.unknown ++ f.encode })

/-- The runtime on the wire format: serialization refuses more than `INT_MAX` bytes.  The C++ parser
also takes what no proto3 serializer writes and what does not parse here: groups, and over-long
tags, of which it drops the bits beyond the 32nd. -/
def wireProtobuf : Protobuf where
  serializeToString p := if p.byteSize ≤ maxInt then (true, p.encode) else (false, [])
  parseFromString bs := parse Payload.merge {} bs

/-! ### Sizes -/

theorem encodeFields_append (fs gs : List Field) :
    encodeFields (fs ++ gs) = encodeFields fs ++ encodeFields gs := by
  simp [encodeFields]

/-- Field numbers up to 15 have one-byte tags. -/
theorem varintField_length {num : ℕ} (hnum : num < 16) (n : ℕ) :
    (encodeFields (varintField num n)).length = varintFieldSize n := by
  unfold varintField varintFieldSize
  split
  · rfl
  · have htag := Wire.varint_length_one (n := 8 * num + 0) (by omega)
    simp only [encodeFields, List.flatMap_cons, List.flatMap_nil, List.append_nil, Field.encode,
      Value.wireType, Value.encode, List.length_append, htag]

theorem lenField_length {num : ℕ} (hnum : num < 16) (bs : Bytes) :
    (encodeFields (lenField num bs)).length = lenFieldSize bs.length := by
  have htag := Wire.varint_length_one (n := 8 * num + 2) (by omega)
  simp only [lenField, encodeFields, List.flatMap_cons, List.flatMap_nil, List.append_nil,
    Field.encode, Value.wireType, Value.encode, List.length_append, htag, lenFieldSize]
  omega

theorem reqHdrNum_lt (w : Workload) : reqHdrNum w < 16 := by cases w <;> decide

theorem rspHdrNum_lt (w : Workload) : rspHdrNum w < 16 := by cases w <;> decide

theorem ReqHeader.encode_length (h : ReqHeader) : h.encode.length = h.byteSize := by
  rw [ReqHeader.encode, ReqHeader.fields, encodeFields_append, List.length_append,
    List.length_append, varintField_length (by decide), varintField_length (by decide)]
  rfl

theorem RspHeader.encode_length (h : RspHeader) : h.encode.length = h.byteSize := by
  rw [RspHeader.encode, RspHeader.fields, List.length_append, varintField_length (by decide)]
  rfl

theorem Header.encode_length (h : Header) : h.encode.length = h.byteSize := by
  rw [Header.encode, Header.fields, Header.byteSize, List.length_append]
  cases h.hdr with
  | notSet => rfl
  | req w r =>
      show (encodeFields (lenField _ _)).length + _ = _
      rw [lenField_length (reqHdrNum_lt w), r.encode_length]
  | rsp w r =>
      show (encodeFields (lenField _ _)).length + _ = _
      rw [lenField_length (rspHdrNum_lt w), r.encode_length]

theorem Data.encode_length (d : Data) : d.encode.length = d.byteSize := by
  rw [Data.encode, Data.fields, Data.byteSize, List.length_append]
  split
  · rfl
  · rw [lenField_length (by decide)]

theorem Payload.encode_length (p : Payload) : p.encode.length = p.byteSize := by
  rw [Payload.encode, Payload.fields, Payload.byteSize, List.length_append]
  cases p.payload with
  | notSet => rfl
  | hdr h =>
      show (encodeFields (lenField _ _)).length + _ = _
      rw [lenField_length (by decide), h.encode_length]
  | data d =>
      show (encodeFields (lenField _ _)).length + _ = _
      rw [lenField_length (by decide), d.encode_length]

/-! ### Round trips, message by message -/

theorem ofInt_int32Varint (v : Int32) : Int32.ofInt (int32Varint v) = v := by
  have hnonneg := Int.emod_nonneg v.toInt (show (2 ^ 64 : ℤ) ≠ 0 by norm_num)
  have hcast : ((int32Varint v : ℕ) : ℤ) = v.toInt % 2 ^ 64 := Int.toNat_of_nonneg hnonneg
  have hmod : (v.toInt % 2 ^ 64).bmod Int32.size = v.toInt.bmod Int32.size := by
    rw [Int.bmod_eq_bmod_iff_bmod_sub_eq_zero, ← Int.dvd_iff_bmod_eq_zero]
    have hsize : ((Int32.size : ℕ) : ℤ) ∣ 2 ^ 64 := by decide
    have hsub : (2 ^ 64 : ℤ) ∣ v.toInt % 2 ^ 64 - v.toInt := by
      rw [show v.toInt % 2 ^ 64 - v.toInt = -(v.toInt - v.toInt % 2 ^ 64) by omega]
      exact Int.dvd_neg.mpr Int.dvd_self_sub_emod
    exact hsize.trans hsub
  apply Int32.toInt_inj.mp
  rw [hcast, Int32.toInt_ofInt, hmod, ← Int32.toInt_ofInt, Int32.ofInt_toInt]

theorem int32Varint_eq_zero {v : Int32} (h : int32Varint v = 0) : v = 0 := by
  have hv := ofInt_int32Varint v
  rw [h] at hv
  exact hv.symm

theorem varintField_valid {num n : ℕ} (hpos : 0 < num) (hnum : num < 16) (hn : n < 2 ^ 64) :
    ∀ f ∈ varintField num n, f.Valid := by
  intro f hf
  unfold varintField at hf
  split at hf
  · cases hf
  · rw [List.mem_singleton] at hf
    subst hf
    exact ⟨hpos, lt_trans hnum (by norm_num), hn⟩

theorem lenField_valid {num : ℕ} {bs : Bytes} (hpos : 0 < num) (hnum : num < 16)
    (hn : bs.length ≤ maxInt) : ∀ f ∈ lenField num bs, f.Valid := by
  intro f hf
  rw [lenField, List.mem_singleton] at hf
  subst hf
  exact ⟨hpos, lt_trans hnum (by norm_num), lt_of_le_of_lt hn (by decide)⟩

theorem ReqHeader.merge_ok (h : ReqHeader) (f : Field) : (h.merge f).1 = true := by
  unfold ReqHeader.merge
  split <;> rfl

theorem RspHeader.merge_ok (h : RspHeader) (f : Field) : (h.merge f).1 = true := by
  unfold RspHeader.merge
  split <;> rfl

theorem Data.merge_ok (d : Data) (f : Field) : (d.merge f).1 = true := by
  unfold Data.merge
  split <;> rfl

theorem ReqHeader.parse_encode (h : ReqHeader) (hplain : h.unknown = []) :
    parse ReqHeader.merge {} h.encode = (true, h) := by
  obtain ⟨c, s, u⟩ := h
  subst hplain
  have hvalid : ∀ f ∈ (ReqHeader.mk c s []).fields, f.Valid := by
    intro f hf
    rcases List.mem_append.mp hf with hf | hf
    · exact varintField_valid (by decide) (by decide) (int32Varint_lt c) f hf
    · exact varintField_valid (by decide) (by decide) (int32Varint_lt s) f hf
  rw [ReqHeader.encode, List.append_nil,
    Wire.parse_encodeFields _ _ hvalid fun f _ a => ReqHeader.merge_ok a f]
  congr 1
  simp only [ReqHeader.fields, varintField]
  split <;> rename_i hc <;> split <;> rename_i hs
  · rw [int32Varint_eq_zero hc, int32Varint_eq_zero hs]; rfl
  · rw [int32Varint_eq_zero hc]
    simp [ReqHeader.merge, ofInt_int32Varint]
  · rw [int32Varint_eq_zero hs]
    simp [ReqHeader.merge, ofInt_int32Varint]
  · simp [ReqHeader.merge, ofInt_int32Varint]

theorem RspHeader.parse_encode (h : RspHeader) (hplain : h.unknown = []) :
    parse RspHeader.merge {} h.encode = (true, h) := by
  obtain ⟨us, u⟩ := h
  subst hplain
  have hvalid : ∀ f ∈ (RspHeader.mk us []).fields, f.Valid :=
    varintField_valid (by decide) (by decide) us.toNat_lt
  rw [RspHeader.encode, List.append_nil,
    Wire.parse_encodeFields _ _ hvalid fun f _ a => RspHeader.merge_ok a f]
  congr 1
  simp only [RspHeader.fields, varintField]
  split
  · rename_i hzero
    rw [show us = 0 from UInt64.toNat_inj.mp (by simpa using hzero)]
    rfl
  · simp [RspHeader.merge]

theorem Data.parse_encode (d : Data) (hplain : d.unknown = []) (hsize : d.byteSize ≤ maxInt) :
    parse Data.merge {} d.encode = (true, d) := by
  obtain ⟨bs, u⟩ := d
  subst hplain
  have hvalid : ∀ f ∈ (Data.mk bs []).fields, f.Valid := by
    rw [Data.fields]
    split
    · simp
    · rename_i hne
      refine lenField_valid (by decide) (by decide) ?_
      simp only [Data.byteSize, if_neg hne, lenFieldSize, List.length_nil] at hsize
      show bs.length ≤ maxInt
      omega
  rw [Data.encode, List.append_nil,
    Wire.parse_encodeFields _ _ hvalid fun f _ a => Data.merge_ok a f]
  congr 1
  simp only [Data.fields]
  split
  · rename_i hnil
    rw [hnil]
    rfl
  · rfl

/-- A message whose only field is a sub-message that merges without error. -/
theorem parse_lenField {α : Type} {merge : α → Field → Bool × α} {num : ℕ} {bs : Bytes} (a : α)
    (hpos : 0 < num) (hnum : num < 16) (hsize : bs.length ≤ maxInt)
    (hmerge : (merge a ⟨num, .len bs⟩).1 = true) :
    parse merge a (encodeFields (lenField num bs)) = (true, (merge a ⟨num, .len bs⟩).2) := by
  have hvalid := lenField_valid hpos hnum hsize
  have hread := Wire.readField_encode ⟨num, .len bs⟩ (hvalid _ (by simp [lenField])) []
  have henc : encodeFields (lenField num bs) = (⟨num, .len bs⟩ : Field).encode ++ [] := by
    simp [encodeFields, lenField]
  obtain ⟨b, rest, hb⟩ := List.exists_cons_of_ne_nil
    (List.ne_nil_of_length_pos (Wire.Field.encode_length_pos ⟨num, .len bs⟩))
  rw [List.append_nil] at hread henc
  rw [henc, parse, hb, List.length_cons, Wire.parseLoop, ← hb, hread]
  simp only [hmerge, Bool.and_self, ↓reduceIte]
  cases rest <;> rfl

theorem Header.parse_encode (h : Header) (hplain : h.unknown = [])
    (hinner : match h.hdr with
      | .notSet => True
      | .req _ r => r.unknown = []
      | .rsp _ r => r.unknown = [])
    (hsize : h.byteSize ≤ maxInt) : parse Header.merge {} h.encode = (true, h) := by
  obtain ⟨hdr, u⟩ := h
  subst hplain
  cases hdr with
  | notSet => rfl
  | req w r =>
      have hlen : r.encode.length ≤ maxInt := by
        simp only [Header.byteSize, lenFieldSize, List.length_nil] at hsize
        rw [r.encode_length]
        omega
      have hr := r.parse_encode hinner
      have hmerge : Header.merge {} ⟨reqHdrNum w, .len r.encode⟩ = (true, ⟨.req w r, []⟩) := by
        cases w <;> simp [Header.merge, reqHdrNum, Header.mergeReq, hr]
      rw [Header.encode, List.append_nil, Header.fields,
        parse_lenField _ (by cases w <;> decide) (reqHdrNum_lt w) hlen (by rw [hmerge]), hmerge]
  | rsp w r =>
      have hlen : r.encode.length ≤ maxInt := by
        simp only [Header.byteSize, lenFieldSize, List.length_nil] at hsize
        rw [r.encode_length]
        omega
      have hr := r.parse_encode hinner
      have hmerge : Header.merge {} ⟨rspHdrNum w, .len r.encode⟩ = (true, ⟨.rsp w r, []⟩) := by
        cases w <;> simp [Header.merge, rspHdrNum, Header.mergeRsp, hr]
      rw [Header.encode, List.append_nil, Header.fields,
        parse_lenField _ (by cases w <;> decide) (rspHdrNum_lt w) hlen (by rw [hmerge]), hmerge]

theorem Payload.parse_encode (p : Payload) (hplain : p.Plain) (hsize : p.byteSize ≤ maxInt) :
    parse Payload.merge {} p.encode = (true, p) := by
  obtain ⟨c, u⟩ := p
  obtain ⟨hu, hc⟩ := hplain
  simp only at hu
  subst hu
  cases c with
  | notSet => rfl
  | hdr h =>
      have hh : h.byteSize ≤ maxInt := by
        simp only [Payload.byteSize, lenFieldSize, List.length_nil] at hsize
        omega
      have hr := h.parse_encode hc.1 hc.2 hh
      have hmerge : Payload.merge {} ⟨1, .len h.encode⟩ = (true, ⟨.hdr h, []⟩) := by
        simp [Payload.merge, hr]
      rw [Payload.encode, List.append_nil, Payload.fields,
        parse_lenField _ (by decide) (by decide) (by rw [h.encode_length]; exact hh)
          (by rw [hmerge]), hmerge]
  | data d =>
      have hd : d.byteSize ≤ maxInt := by
        simp only [Payload.byteSize, lenFieldSize, List.length_nil] at hsize
        omega
      have hr := d.parse_encode hc hd
      have hmerge : Payload.merge {} ⟨2, .len d.encode⟩ = (true, ⟨.data d, []⟩) := by
        simp [Payload.merge, hr]
      rw [Payload.encode, List.append_nil, Payload.fields,
        parse_lenField _ (by decide) (by decide) (by rw [d.encode_length]; exact hd)
          (by rw [hmerge]), hmerge]

/-- **The wire format is a lawful runtime.** -/
theorem wireProtobuf_lawful : wireProtobuf.Lawful where
  serialize_fits p hsize := by
    simp [wireProtobuf, hsize, p.encode_length]
  serialize_exceeds p hsize := by
    simp [wireProtobuf, hsize]
  parse_serialize p hplain hsize := by
    simp only [wireProtobuf, if_pos hsize]
    exact p.parse_encode hplain hsize

/-! ### What was parsed is written in a form that parses -/

/-- The bytes kept as unknown are fields, each of which every message takes. -/
def KeptFields {α : Type} (merge : α → Field → Bool × α) (unknown : Bytes) : Prop :=
  ∃ fs, (∀ f ∈ fs, f.Valid) ∧ (∀ f ∈ fs, ∀ a, (merge a f).1 = true) ∧ unknown = encodeFields fs

theorem keptFields_nil {α : Type} (merge : α → Field → Bool × α) : KeptFields merge [] :=
  ⟨[], by simp, by simp, rfl⟩

theorem KeptFields.snoc {α : Type} {merge : α → Field → Bool × α} {unknown : Bytes}
    (h : KeptFields merge unknown) {f : Field} (hf : f.Valid)
    (hmerge : ∀ a, (merge a f).1 = true) : KeptFields merge (unknown ++ f.encode) := by
  obtain ⟨fs, hvalid, hok, rfl⟩ := h
  refine ⟨fs ++ [f], ?_, ?_, ?_⟩
  · intro g hg
    rcases List.mem_append.mp hg with hg | hg
    · exact hvalid g hg
    · rw [List.mem_singleton.mp hg]
      exact hf
  · intro g hg
    rcases List.mem_append.mp hg with hg | hg
    · exact hok g hg
    · rw [List.mem_singleton.mp hg]
      exact hmerge
  · rw [encodeFields_append]
    simp [encodeFields]

/-- Known fields that merge, followed by kept ones, parse into any message. -/
theorem KeptFields.parse_ok {α : Type} {merge : α → Field → Bool × α} {unknown : Bytes}
    (h : KeptFields merge unknown) {fs : List Field} (hvalid : ∀ f ∈ fs, f.Valid)
    (hmerge : ∀ f ∈ fs, ∀ a, (merge a f).1 = true) (a : α) :
    (parse merge a (encodeFields fs ++ unknown)).1 = true := by
  obtain ⟨gs, hgs, hok, rfl⟩ := h
  rw [Wire.parse_encodeFields_append _ _ _ hvalid hmerge, Wire.parse_encodeFields _ _ hgs hok]

def ReqHeader.Kept (h : ReqHeader) : Prop := KeptFields ReqHeader.merge h.unknown

def RspHeader.Kept (h : RspHeader) : Prop := KeptFields RspHeader.merge h.unknown

def Data.Kept (d : Data) : Prop := KeptFields Data.merge d.unknown

def Header.Kept (h : Header) : Prop :=
  KeptFields Header.merge h.unknown ∧
  match h.hdr with
  | .notSet => True
  | .req _ r => r.Kept
  | .rsp _ r => r.Kept

def Payload.Kept (p : Payload) : Prop :=
  KeptFields Payload.merge p.unknown ∧
  match p.payload with
  | .notSet => True
  | .hdr h => h.Kept
  | .data d => d.Kept

theorem ReqHeader.kept_merge (h : ReqHeader) (f : Field) (hf : f.Valid) (hkept : h.Kept) :
    (h.merge f).2.Kept := by
  unfold ReqHeader.merge
  split
  · exact hkept
  · exact hkept
  · exact KeptFields.snoc hkept hf fun a => a.merge_ok f

theorem RspHeader.kept_merge (h : RspHeader) (f : Field) (hf : f.Valid) (hkept : h.Kept) :
    (h.merge f).2.Kept := by
  unfold RspHeader.merge
  split
  · exact hkept
  · exact KeptFields.snoc hkept hf fun a => a.merge_ok f

theorem Data.kept_merge (d : Data) (f : Field) (hf : f.Valid) (hkept : d.Kept) :
    (d.merge f).2.Kept := by
  unfold Data.merge
  split
  · exact hkept
  · exact KeptFields.snoc hkept hf fun a => a.merge_ok f

theorem Header.kept_mergeReq (h : Header) (w : Workload) (bs : Bytes) (hkept : h.Kept) :
    (h.mergeReq w bs).2.Kept := by
  refine ⟨hkept.1, Wire.parse_invariant (P := ReqHeader.Kept) ReqHeader.kept_merge ?_ bs⟩
  have hinner := hkept.2
  cases hhdr : h.hdr with
  | req w' r =>
      rw [hhdr] at hinner
      dsimp only
      split
      · exact hinner
      · exact keptFields_nil _
  | notSet => exact keptFields_nil _
  | rsp w' r => exact keptFields_nil _

theorem Header.kept_mergeRsp (h : Header) (w : Workload) (bs : Bytes) (hkept : h.Kept) :
    (h.mergeRsp w bs).2.Kept := by
  refine ⟨hkept.1, Wire.parse_invariant (P := RspHeader.Kept) RspHeader.kept_merge ?_ bs⟩
  have hinner := hkept.2
  cases hhdr : h.hdr with
  | rsp w' r =>
      rw [hhdr] at hinner
      dsimp only
      split
      · exact hinner
      · exact keptFields_nil _
  | notSet => exact keptFields_nil _
  | req w' r => exact keptFields_nil _

theorem Header.kept_merge (h : Header) (f : Field) (hf : f.Valid) (hkept : h.Kept) :
    (h.merge f).2.Kept := by
  unfold Header.merge
  split
  · exact h.kept_mergeReq _ _ hkept
  · exact h.kept_mergeReq _ _ hkept
  · exact h.kept_mergeRsp _ _ hkept
  · exact h.kept_mergeRsp _ _ hkept
  · exact h.kept_mergeReq _ _ hkept
  · exact h.kept_mergeRsp _ _ hkept
  · refine ⟨hkept.1.snoc hf fun a => ?_, hkept.2⟩
    unfold Header.merge
    split <;> first | rfl | (exfalso; simp_all)

theorem Payload.kept_merge (p : Payload) (f : Field) (hf : f.Valid) (hkept : p.Kept) :
    (p.merge f).2.Kept := by
  have hinner := hkept.2
  unfold Payload.merge
  split
  · refine ⟨hkept.1, Wire.parse_invariant (P := Header.Kept) Header.kept_merge ?_ _⟩
    cases hcase : p.payload with
    | hdr h =>
        rw [hcase] at hinner
        exact hinner
    | notSet => exact ⟨keptFields_nil _, trivial⟩
    | data d => exact ⟨keptFields_nil _, trivial⟩
  · refine ⟨hkept.1, Wire.parse_invariant (P := Data.Kept) Data.kept_merge ?_ _⟩
    cases hcase : p.payload with
    | data d =>
        rw [hcase] at hinner
        exact hinner
    | notSet => exact keptFields_nil _
    | hdr h => exact keptFields_nil _
  · refine ⟨hkept.1.snoc hf fun a => ?_, hkept.2⟩
    unfold Payload.merge
    split <;> first | rfl | (exfalso; simp_all)

theorem ReqHeader.fields_valid (h : ReqHeader) : ∀ f ∈ h.fields, f.Valid := by
  intro f hf
  rcases List.mem_append.mp hf with hf | hf
  · exact varintField_valid (by decide) (by decide) (int32Varint_lt _) f hf
  · exact varintField_valid (by decide) (by decide) (int32Varint_lt _) f hf

theorem ReqHeader.reparse {h : ReqHeader} (hkept : h.Kept) (a : ReqHeader) :
    (parse ReqHeader.merge a h.encode).1 = true :=
  hkept.parse_ok h.fields_valid (fun f _ b => b.merge_ok f) a

theorem RspHeader.reparse {h : RspHeader} (hkept : h.Kept) (a : RspHeader) :
    (parse RspHeader.merge a h.encode).1 = true :=
  hkept.parse_ok (varintField_valid (by decide) (by decide) h.msgProcessTimeUs.toNat_lt)
    (fun f _ b => b.merge_ok f) a

theorem Data.reparse {d : Data} (hkept : d.Kept) (hsize : d.byteSize ≤ maxInt) (a : Data) :
    (parse Data.merge a d.encode).1 = true := by
  refine hkept.parse_ok ?_ (fun f _ b => b.merge_ok f) a
  rw [Data.fields]
  split
  · simp
  · rename_i hne
    refine lenField_valid (by decide) (by decide) ?_
    simp only [Data.byteSize, if_neg hne, lenFieldSize] at hsize
    omega

theorem Header.reparse {h : Header} (hkept : h.Kept) (hsize : h.byteSize ≤ maxInt) (a : Header) :
    (parse Header.merge a h.encode).1 = true := by
  have hinner := hkept.2
  rw [Header.byteSize] at hsize
  refine hkept.1.parse_ok ?_ ?_ a
  · rw [Header.fields]
    cases hhdr : h.hdr with
    | notSet => simp
    | req w r =>
        simp only [hhdr, lenFieldSize] at hsize
        refine lenField_valid (by cases w <;> decide) (reqHdrNum_lt w) ?_
        rw [r.encode_length]
        omega
    | rsp w r =>
        simp only [hhdr, lenFieldSize] at hsize
        refine lenField_valid (by cases w <;> decide) (rspHdrNum_lt w) ?_
        rw [r.encode_length]
        omega
  · rw [Header.fields]
    cases hhdr : h.hdr with
    | notSet => simp
    | req w r =>
        rw [hhdr] at hinner
        intro f hf b
        rw [List.mem_singleton.mp hf]
        cases w <;> exact ReqHeader.reparse hinner _
    | rsp w r =>
        rw [hhdr] at hinner
        intro f hf b
        rw [List.mem_singleton.mp hf]
        cases w <;> exact RspHeader.reparse hinner _

/-- The fields a payload is written as are valid, and every payload takes them. -/
theorem Payload.fields_ok {p : Payload} (hkept : p.Kept) (hsize : p.byteSize ≤ maxInt) :
    (∀ f ∈ p.fields, f.Valid) ∧ ∀ f ∈ p.fields, ∀ a, (Payload.merge a f).1 = true := by
  have hinner := hkept.2
  rw [Payload.byteSize] at hsize
  rw [Payload.fields]
  cases hcase : p.payload with
  | notSet => simp
  | hdr h =>
      simp only [hcase, lenFieldSize] at hsize
      rw [hcase] at hinner
      refine ⟨lenField_valid (by decide) (by decide) ?_, fun f hf b => ?_⟩
      · rw [h.encode_length]
        omega
      · rw [List.mem_singleton.mp hf]
        exact Header.reparse hinner (by omega) _
  | data d =>
      simp only [hcase, lenFieldSize] at hsize
      rw [hcase] at hinner
      refine ⟨lenField_valid (by decide) (by decide) ?_, fun f hf b => ?_⟩
      · rw [d.encode_length]
        omega
      · rw [List.mem_singleton.mp hf]
        exact Data.reparse hinner (by omega) _

theorem Payload.Plain.kept {p : Payload} (h : p.Plain) : p.Kept := by
  obtain ⟨hu, hcase⟩ := h
  unfold Payload.Kept
  rw [hu]
  refine ⟨keptFields_nil _, ?_⟩
  cases hp : p.payload with
  | notSet => trivial
  | data d =>
      rw [hp] at hcase
      show KeptFields _ d.unknown
      rw [hcase]
      exact keptFields_nil _
  | hdr hdr =>
      rw [hp] at hcase
      obtain ⟨hu', hkind⟩ := hcase
      show KeptFields _ hdr.unknown ∧ _
      rw [hu']
      refine ⟨keptFields_nil _, ?_⟩
      cases hk : hdr.hdr with
      | notSet => trivial
      | req w r =>
          rw [hk] at hkind
          show KeptFields _ r.unknown
          rw [show r.unknown = [] from hkind]
          exact keptFields_nil _
      | rsp w r =>
          rw [hk] at hkind
          show KeptFields _ r.unknown
          rw [show r.unknown = [] from hkind]
          exact keptFields_nil _

theorem wireProtobuf_kept (bs : Bytes) : (wireProtobuf.par bs).Kept :=
  Wire.parse_invariant (P := Payload.Kept) Payload.kept_merge ⟨keptFields_nil _, trivial⟩ bs

theorem wireProtobuf_ser {p : Payload} (hsize : p.byteSize ≤ maxInt) :
    wireProtobuf.ser p = p.encode := by
  show (if p.byteSize ≤ maxInt then _ else _ : Bool × Bytes).2 = _
  rw [if_pos hsize]

/-- **Whatever a parse left can be written and parsed again**, a failed parse included. -/
theorem wireProtobuf_reparse (bs : Bytes) :
    (wireProtobuf.parseFromString (wireProtobuf.ser (wireProtobuf.par bs))).1 = true := by
  have hkept := wireProtobuf_kept bs
  by_cases hsize : (wireProtobuf.par bs).byteSize ≤ maxInt
  · obtain ⟨hvalid, hmerge⟩ := Payload.fields_ok hkept hsize
    rw [wireProtobuf_ser hsize]
    exact hkept.1.parse_ok hvalid hmerge {}
  · rw [wireProtobuf_lawful.ser_exceeds (by omega)]
    rfl

/-- **Damage after a complete message** makes the parse fail and leaves the message as it was. -/
theorem wireProtobuf_trailing {p : Payload} (hplain : p.Plain) (hsize : p.byteSize ≤ maxInt)
    {junk : Bytes} (hne : junk ≠ []) (hjunk : Wire.readField junk = none) :
    wireProtobuf.parseFromString (wireProtobuf.ser p ++ junk) = (false, p) := by
  obtain ⟨hvalid, hmerge⟩ := Payload.fields_ok hplain.kept hsize
  have hdec := p.parse_encode hplain hsize
  have henc : p.encode = encodeFields p.fields := by
    rw [Payload.encode, hplain.1, List.append_nil]
  rw [henc, Wire.parse_encodeFields _ _ hvalid hmerge] at hdec
  rw [wireProtobuf_ser hsize, henc]
  show parse Payload.merge {} (encodeFields p.fields ++ junk) = _
  have hfold := (Prod.mk.inj hdec).2
  rw [Wire.parse_encodeFields_append _ _ _ hvalid hmerge, hfold, Wire.parse_stuck _ hne hjunk]

end RpcTransport

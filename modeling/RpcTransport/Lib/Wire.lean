import Mathlib.Data.List.Basic
import Mathlib.Tactic.Common
import Mathlib.Tactic.NormNum

/-!
# The tag/value wire format of protocol buffers

A message on the wire is a sequence of fields, each a varint tag (`8 * number + wire type`) and a
value: a varint, a length-delimited byte string, or 4 or 8 fixed bytes.  The format is independent
of any schema; a schema enters through a `merge` function that says what one field does to a
message value, and that may refuse it.

* `readVarint_varint` — varints are read back, whatever follows them;
* `readField_encode` — so are fields;
* `parse merge` — merges the fields of a byte string from left to right and stops at the first
  defect, keeping what was merged before it;
* `parse_encodeFields` — parsing the encoding of a list of fields merges exactly these fields, and
  `parse_encodeFields_append` goes on with the bytes after them;
* `parse_invariant` — what merging a valid field preserves holds of whatever a parse leaves.

Groups (wire types 3 and 4) are not part of proto3 and are refused here.
-/

namespace Wire

abbrev Bytes := List UInt8

/-! ### Varints -/

/-- At most `k + 1` groups of seven bits, the lowest first; all but the last have the high bit. -/
def varintGroups : ℕ → ℕ → Bytes
  | 0, n => [UInt8.ofNat n]
  | k + 1, n =>
      if n < 128 then [UInt8.ofNat n]
      else UInt8.ofNat (n % 128 + 128) :: varintGroups k (n / 128)

/-- The varint of a 64-bit number takes at most ten bytes. -/
def varint (n : ℕ) : Bytes := varintGroups 9 n

/-- Read a varint of at most `k` bytes. -/
def readVarintGroups : ℕ → Bytes → Option (ℕ × Bytes)
  | 0, _ => none
  | _ + 1, [] => none
  | k + 1, b :: bs =>
      if b.toNat < 128 then some (b.toNat, bs)
      else (readVarintGroups k bs).map fun p => (b.toNat - 128 + 128 * p.1, p.2)

/-- Read a varint; bits beyond the 64th are dropped. -/
def readVarint (bs : Bytes) : Option (ℕ × Bytes) :=
  (readVarintGroups 10 bs).map fun p => (p.1 % 2 ^ 64, p.2)

theorem toNat_ofNat_of_lt {n : ℕ} (h : n < 256) : (UInt8.ofNat n).toNat = n := by
  simp [UInt8.toNat_ofNat', Nat.mod_eq_of_lt h]

theorem readVarintGroups_varintGroups (rest : Bytes) :
    ∀ (k n : ℕ), n < 128 ^ (k + 1) →
      readVarintGroups (k + 1) (varintGroups k n ++ rest) = some (n, rest) := by
  intro k
  induction k with
  | zero =>
      intro n h
      have hn : n < 128 := by simpa using h
      simp [varintGroups, readVarintGroups, Nat.mod_eq_of_lt (show n < 256 by omega), hn]
  | succ k ih =>
      intro n h
      rw [varintGroups]
      split
      · rename_i hlt
        rw [List.singleton_append, readVarintGroups, toNat_ofNat_of_lt (by omega), if_pos hlt]
      · rename_i hge
        have hbyte := toNat_ofNat_of_lt (show n % 128 + 128 < 256 by omega)
        have hdiv : n / 128 < 128 ^ (k + 1) := by
          rw [Nat.div_lt_iff_lt_mul (by decide), ← pow_succ]
          exact h
        rw [List.cons_append, readVarintGroups, hbyte, if_neg (by omega), ih _ hdiv]
        simp only [Option.map_some, Option.some.injEq, Prod.mk.injEq, and_true]
        omega

/-- **Varints are read back.** -/
theorem readVarint_varint {n : ℕ} (h : n < 2 ^ 64) (rest : Bytes) :
    readVarint (varint n ++ rest) = some (n, rest) := by
  have h10 : n < 128 ^ (9 + 1) := lt_trans h (by norm_num)
  rw [readVarint, varint, readVarintGroups_varintGroups rest 9 n h10]
  simp only [Option.map_some, Nat.mod_eq_of_lt h]

theorem varintGroups_length_pos (k n : ℕ) : 0 < (varintGroups k n).length := by
  cases k with
  | zero => simp [varintGroups]
  | succ k => rw [varintGroups]; split <;> simp

theorem varint_length_pos (n : ℕ) : 0 < (varint n).length := varintGroups_length_pos 9 n

theorem varintGroups_length_le : ∀ (j k n : ℕ), n < 128 ^ (j + 1) →
    (varintGroups k n).length ≤ j + 1 := by
  intro j
  induction j with
  | zero =>
      intro k n h
      have hn : n < 128 := by simpa using h
      cases k with
      | zero => simp [varintGroups]
      | succ k => simp [varintGroups, hn]
  | succ j ih =>
      intro k n h
      cases k with
      | zero => simp [varintGroups]
      | succ k =>
          rw [varintGroups]
          split
          · simp
          · have hdiv : n / 128 < 128 ^ (j + 1) := by
              rw [Nat.div_lt_iff_lt_mul (by decide), ← pow_succ]
              exact h
            have := ih k (n / 128) hdiv
            simpa using this

/-- A number below `128 ^ k` takes at most `k` bytes. -/
theorem varint_length_le {n j : ℕ} (h : n < 128 ^ (j + 1)) : (varint n).length ≤ j + 1 :=
  varintGroups_length_le j 9 n h

/-- A larger number does not take fewer bytes. -/
theorem varintGroups_length_mono : ∀ (k : ℕ) {m n : ℕ}, m ≤ n →
    (varintGroups k m).length ≤ (varintGroups k n).length := by
  intro k
  induction k with
  | zero => intro m n _; exact le_rfl
  | succ k ih =>
      intro m n h
      have hpos := varintGroups_length_pos (k + 1) n
      rw [varintGroups]
      split
      · exact hpos
      · rw [varintGroups, if_neg (by omega), List.length_cons, List.length_cons]
        exact Nat.succ_le_succ (ih (Nat.div_le_div_right h))

theorem varint_length_mono {m n : ℕ} (h : m ≤ n) : (varint m).length ≤ (varint n).length :=
  varintGroups_length_mono 9 h

theorem varint_length_one {n : ℕ} (h : n < 128) : (varint n).length = 1 := by
  have hle := varint_length_le (n := n) (j := 0) (by simpa using h)
  have hpos := varint_length_pos n
  omega

/-! ### Fields -/

/-- What a field carries, by wire type. -/
inductive Value
  | varint (n : ℕ)
  | fixed64 (bs : Bytes)
  | len (bs : Bytes)
  | fixed32 (bs : Bytes)
  deriving DecidableEq, Repr

structure Field where
  num : ℕ
  value : Value
  deriving DecidableEq, Repr

def Value.wireType : Value → ℕ
  | .varint _ => 0
  | .fixed64 _ => 1
  | .len _ => 2
  | .fixed32 _ => 5

def Value.encode : Value → Bytes
  | .varint n => Wire.varint n
  | .fixed64 bs => bs
  | .len bs => Wire.varint bs.length ++ bs
  | .fixed32 bs => bs

def Field.encode (f : Field) : Bytes :=
  varint (8 * f.num + f.value.wireType) ++ f.value.encode

/-- The numbers and sizes the format can carry. -/
def Value.Valid : Value → Prop
  | .varint n => n < 2 ^ 64
  | .fixed64 bs => bs.length = 8
  | .len bs => bs.length < 2 ^ 64
  | .fixed32 bs => bs.length = 4

def Field.Valid (f : Field) : Prop := 0 < f.num ∧ f.num < 2 ^ 29 ∧ f.value.Valid

/-- Read the value of a field of the given wire type.  A byte string that ends before its stated
length is handed over as far as it goes, with the flag `false`. -/
def readValue (wireType : ℕ) (bs : Bytes) : Option (Value × Bool × Bytes) :=
  match wireType with
  | 0 => (readVarint bs).map fun p => (.varint p.1, true, p.2)
  | 1 => if 8 ≤ bs.length then some (.fixed64 (bs.take 8), true, bs.drop 8) else none
  | 2 => (readVarint bs).map fun p =>
      if p.1 ≤ p.2.length then (.len (p.2.take p.1), true, p.2.drop p.1)
      else (.len p.2, false, [])
  | 5 => if 4 ≤ bs.length then some (.fixed32 (bs.take 4), true, bs.drop 4) else none
  | _ => none

/-- Read one field: its tag must fit in 32 bits and its number must not be zero. -/
def readField (bs : Bytes) : Option (Field × Bool × Bytes) :=
  match readVarint bs with
  | none => none
  | some (tag, rest) =>
      if tag < 2 ^ 32 ∧ tag / 8 ≠ 0 then
        (readValue (tag % 8) rest).map fun p => (⟨tag / 8, p.1⟩, p.2.1, p.2.2)
      else none

theorem readValue_encode (v : Value) (hv : v.Valid) (rest : Bytes) :
    readValue v.wireType (v.encode ++ rest) = some (v, true, rest) := by
  cases v with
  | varint n => simp [Value.wireType, Value.encode, readValue, readVarint_varint hv]
  | fixed64 bs =>
      have hlen : bs.length = 8 := hv
      simp [Value.wireType, Value.encode, readValue, ← hlen]
  | len bs =>
      have hlen : bs.length < 2 ^ 64 := hv
      simp [Value.wireType, Value.encode, readValue, List.append_assoc,
        readVarint_varint hlen]
  | fixed32 bs =>
      have hlen : bs.length = 4 := hv
      simp [Value.wireType, Value.encode, readValue, ← hlen]

theorem Value.wireType_lt (v : Value) : v.wireType < 8 := by
  cases v <;> simp [Value.wireType]

/-- **Fields are read back.** -/
theorem readField_encode (f : Field) (hf : f.Valid) (rest : Bytes) :
    readField (f.encode ++ rest) = some (f, true, rest) := by
  obtain ⟨hpos, hnum, hval⟩ := hf
  have hwt := f.value.wireType_lt
  have hnum' : f.num < 536870912 := by simpa using hnum
  have htag : 8 * f.num + f.value.wireType < 2 ^ 32 := by norm_num; omega
  have hdiv : (8 * f.num + f.value.wireType) / 8 = f.num := by omega
  have hmod : (8 * f.num + f.value.wireType) % 8 = f.value.wireType := by omega
  rw [Field.encode, List.append_assoc, readField,
    readVarint_varint (lt_trans htag (by norm_num))]
  simp only [hdiv, hmod, readValue_encode f.value hval rest]
  rw [if_pos ⟨htag, by omega⟩]
  rfl

theorem readVarintGroups_length : ∀ (k : ℕ) (bs : Bytes) {n : ℕ} {rest : Bytes},
    readVarintGroups k bs = some (n, rest) → rest.length < bs.length := by
  intro k
  induction k with
  | zero => intro bs n rest h; cases h
  | succ k ih =>
      intro bs n rest h
      cases bs with
      | nil => cases h
      | cons b bs =>
          rw [readVarintGroups] at h
          split at h
          · cases h
            exact Nat.lt_succ_self _
          · obtain ⟨q, hq, heq⟩ := Option.map_eq_some_iff.mp h
            cases heq
            exact (ih bs hq).trans (Nat.lt_succ_self _)

/-- A varint takes at least one byte and carries 64 bits. -/
theorem readVarint_some {bs : Bytes} {n : ℕ} {rest : Bytes} (h : readVarint bs = some (n, rest)) :
    rest.length < bs.length ∧ n < 2 ^ 64 := by
  obtain ⟨q, hq, heq⟩ := Option.map_eq_some_iff.mp h
  cases heq
  exact ⟨readVarintGroups_length 10 bs hq, Nat.mod_lt _ (by norm_num)⟩

/-- A value that was read is one the format can carry, the truncated ones included. -/
theorem readValue_some {wireType : ℕ} {bs : Bytes} {v : Value} {complete : Bool} {rest : Bytes}
    (h : readValue wireType bs = some (v, complete, rest)) :
    v.Valid ∧ rest.length ≤ bs.length := by
  unfold readValue at h
  split at h
  · obtain ⟨q, hq, heq⟩ := Option.map_eq_some_iff.mp h
    have hvar := readVarint_some hq
    cases heq
    exact ⟨hvar.2, hvar.1.le⟩
  · split at h
    · cases h
      simp only [Value.Valid, List.length_take, List.length_drop]
      omega
    · cases h
  · obtain ⟨q, hq, heq⟩ := Option.map_eq_some_iff.mp h
    have hvar := readVarint_some hq
    have hlen := hvar.2
    split at heq
    · cases heq
      simp only [Value.Valid, List.length_take, List.length_drop]
      omega
    · cases heq
      simp only [Value.Valid, List.length_nil]
      omega
  · split at h
    · cases h
      simp only [Value.Valid, List.length_take, List.length_drop]
      omega
    · cases h
  · cases h

/-- **What is read is valid**, and shortens the input. -/
theorem readField_some {bs : Bytes} {f : Field} {complete : Bool} {rest : Bytes}
    (h : readField bs = some (f, complete, rest)) : f.Valid ∧ rest.length < bs.length := by
  unfold readField at h
  split at h
  · cases h
  · rename_i tag tail htag
    have hvar := readVarint_some htag
    split at h
    · rename_i hnum
      obtain ⟨q, hq, heq⟩ := Option.map_eq_some_iff.mp h
      have hval : q.1.Valid ∧ q.2.2.length ≤ tail.length := readValue_some hq
      have hlt := hnum.1
      cases heq
      refine ⟨⟨Nat.pos_of_ne_zero hnum.2, ?_, hval.1⟩, lt_of_le_of_lt hval.2 hvar.1⟩
      show tag / 8 < 2 ^ 29
      omega
    · cases h

theorem Field.encode_length_pos (f : Field) : 0 < f.encode.length := by
  have := varint_length_pos (8 * f.num + f.value.wireType)
  rw [Field.encode, List.length_append]
  omega

/-! ### Messages -/

variable {α : Type}

/-- Merge fields from left to right, at most `fuel` of them.  The flag says whether the whole byte
string was taken; what was merged before a defect stays merged. -/
def parseLoop (merge : α → Field → Bool × α) : ℕ → α → Bytes → Bool × α
  | _, a, [] => (true, a)
  | 0, a, _ :: _ => (false, a)
  | fuel + 1, a, b :: bs =>
      match readField (b :: bs) with
      | none => (false, a)
      | some (f, complete, rest) =>
          if (merge a f).1 && complete then parseLoop merge fuel (merge a f).2 rest
          else (false, (merge a f).2)

/-- Every field takes at least one byte, so the length of the input is fuel enough. -/
def parse (merge : α → Field → Bool × α) (a : α) (bs : Bytes) : Bool × α :=
  parseLoop merge bs.length a bs

def encodeFields (fs : List Field) : Bytes := fs.flatMap Field.encode

theorem length_le_encodeFields (fs : List Field) : fs.length ≤ (encodeFields fs).length := by
  induction fs with
  | nil => simp [encodeFields]
  | cons f fs ih =>
      have hpos := f.encode_length_pos
      simp only [encodeFields, List.flatMap_cons, List.length_append, List.length_cons] at ih ⊢
      omega

theorem parseLoop_encodeFields {merge : α → Field → Bool × α} :
    ∀ (fs : List Field) (fuel : ℕ) (a : α), fs.length ≤ fuel → (∀ f ∈ fs, f.Valid) →
      (∀ f ∈ fs, ∀ a, (merge a f).1 = true) →
      parseLoop merge fuel a (encodeFields fs) =
        (true, fs.foldl (fun a f => (merge a f).2) a) := by
  intro fs
  induction fs with
  | nil => intro fuel a _ _ _; cases fuel <;> rfl
  | cons f fs ih =>
      intro fuel a hfuel hvalid hmerge
      obtain ⟨k, rfl⟩ : ∃ k, fuel = k + 1 := ⟨fuel - 1, by simp at hfuel; omega⟩
      have hread := readField_encode f (hvalid f (by simp)) (encodeFields fs)
      have hcons : encodeFields (f :: fs) = f.encode ++ encodeFields fs := by
        simp [encodeFields]
      obtain ⟨b, bs, hb⟩ : ∃ b bs, f.encode ++ encodeFields fs = b :: bs :=
        List.exists_cons_of_ne_nil (List.append_ne_nil_of_left_ne_nil
          (List.ne_nil_of_length_pos f.encode_length_pos) _)
      rw [hcons, hb, parseLoop, ← hb, hread]
      simp only [hmerge f (by simp) a, Bool.and_self, ↓reduceIte, List.foldl_cons]
      exact ih k _ (by simpa using hfuel) (fun g hg => hvalid g (List.mem_cons_of_mem f hg))
        (fun g hg => hmerge g (List.mem_cons_of_mem f hg))

/-- **Parsing an encoding merges its fields**, in order, and takes the whole byte string. -/
theorem parse_encodeFields {merge : α → Field → Bool × α} (fs : List Field) (a : α)
    (hvalid : ∀ f ∈ fs, f.Valid) (hmerge : ∀ f ∈ fs, ∀ a, (merge a f).1 = true) :
    parse merge a (encodeFields fs) = (true, fs.foldl (fun a f => (merge a f).2) a) :=
  parseLoop_encodeFields fs _ a (length_le_encodeFields fs) hvalid hmerge

/-- More fuel than bytes changes nothing. -/
theorem parseLoop_fuel {merge : α → Field → Bool × α} :
    ∀ (fuel : ℕ) (a : α) (bs : Bytes), bs.length ≤ fuel →
      parseLoop merge fuel a bs = parse merge a bs := by
  intro fuel
  induction fuel using Nat.strong_induction_on with
  | _ fuel ih =>
      intro a bs hfuel
      cases bs with
      | nil => cases fuel <;> rfl
      | cons b bs =>
          obtain ⟨k, rfl⟩ : ∃ k, fuel = k + 1 :=
            ⟨fuel - 1, by rw [List.length_cons] at hfuel; omega⟩
          rw [List.length_cons] at hfuel
          rw [parse, List.length_cons, parseLoop, parseLoop]
          cases hread : readField (b :: bs) with
          | none => rfl
          | some q =>
              obtain ⟨f, complete, rest⟩ := q
              have hrest := (readField_some hread).2
              rw [List.length_cons] at hrest
              dsimp only
              rw [ih k (by omega) _ rest (by omega)]
              split
              · rcases Nat.lt_or_ge bs.length (k + 1) with hlt | hge
                · rw [ih bs.length hlt _ rest (by omega)]
                · omega
              · rfl

/-- **Parsing goes on where an encoding ends**: the fields are merged, then the bytes after them. -/
theorem parse_encodeFields_append {merge : α → Field → Bool × α} :
    ∀ (fs : List Field) (a : α) (bs : Bytes), (∀ f ∈ fs, f.Valid) →
      (∀ f ∈ fs, ∀ a, (merge a f).1 = true) →
      parse merge a (encodeFields fs ++ bs)
        = parse merge (fs.foldl (fun a f => (merge a f).2) a) bs := by
  intro fs
  induction fs with
  | nil => intro a bs _ _; rfl
  | cons f fs ih =>
      intro a bs hvalid hmerge
      have hread := readField_encode f (hvalid f (by simp)) (encodeFields fs ++ bs)
      have hcons : encodeFields (f :: fs) ++ bs = f.encode ++ (encodeFields fs ++ bs) := by
        simp [encodeFields]
      obtain ⟨b, tail, hb⟩ : ∃ b tail, f.encode ++ (encodeFields fs ++ bs) = b :: tail :=
        List.exists_cons_of_ne_nil (List.append_ne_nil_of_left_ne_nil
          (List.ne_nil_of_length_pos f.encode_length_pos) _)
      have hshort := (readField_some hread).2
      rw [hcons, parse, hb, List.length_cons, parseLoop, ← hb, hread]
      simp only [hmerge f (by simp) a, Bool.and_self, ↓reduceIte, List.foldl_cons]
      rw [hb, List.length_cons] at hshort
      rw [parseLoop_fuel _ _ _ (by omega)]
      exact ih _ bs (fun g hg => hvalid g (List.mem_cons_of_mem f hg))
        (fun g hg => hmerge g (List.mem_cons_of_mem f hg))

/-- Bytes that begin with no field stop the parser with what it has. -/
theorem parse_stuck {merge : α → Field → Bool × α} (a : α) {bs : Bytes} (hne : bs ≠ [])
    (h : readField bs = none) : parse merge a bs = (false, a) := by
  obtain ⟨b, tail, rfl⟩ := List.exists_cons_of_ne_nil hne
  rw [parse, List.length_cons, parseLoop, h]

/-- **Invariants of parsing**: what merging one valid field preserves holds of the message a parse
leaves, successful or not. -/
theorem parse_invariant {merge : α → Field → Bool × α} {P : α → Prop}
    (step : ∀ a f, f.Valid → P a → P (merge a f).2) {a : α} (h : P a) (bs : Bytes) :
    P (parse merge a bs).2 := by
  suffices hloop : ∀ (fuel : ℕ) (a : α) (bs : Bytes), P a → P (parseLoop merge fuel a bs).2 from
    hloop bs.length a bs h
  intro fuel
  induction fuel with
  | zero => intro a bs h; cases bs <;> exact h
  | succ fuel ih =>
      intro a bs h
      cases bs with
      | nil => exact h
      | cons b bs =>
          rw [parseLoop]
          cases hread : readField (b :: bs) with
          | none => exact h
          | some q =>
              obtain ⟨f, complete, rest⟩ := q
              have hstep := step a f (readField_some hread).1 h
              dsimp only
              split
              · exact ih _ rest hstep
              · exact hstep

end Wire

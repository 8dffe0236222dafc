import RpcTransport.Lib.Checked
import RpcTransport.Proto

/-!
# Buffers, messages and the ways a call can fail

`transport.hpp` hands data around as a `Msg`, a vector of `DataBuf` views, each `_len` bytes from
`_addr`; here a `DataBuf` is the bytes it views and a `Msg` the list of them.  The owning
`MsgDataContainer` grows in step with the message and holds the same bytes.

A call is a `Checked` computation: its result is a value or a `Fault`, and every read of message
memory is recorded with the size of the buffer it reads, the reads that only feed the verbose log
included.
-/

namespace RpcTransport

/-- How a call ends when it does not return.  The first two are C++ exceptions; signed overflow, an
index outside a vector and a null dereference are undefined behaviour; `diverges` is a loop that
does not end. -/
inductive Fault
  | exception (what : String)
  | badAlloc
  | signedOverflow
  | outOfRange
  | nullDeref
  | diverges
  deriving DecidableEq, Repr

/-- What a `catch (const std::exception &)` catches. -/
def Fault.IsException : Fault → Prop
  | .exception _ => True
  | .badAlloc => True
  | _ => False

instance (e : Fault) : Decidable e.IsException := by
  cases e <;> unfold Fault.IsException <;> infer_instance

/-- A call of the program. -/
abbrev Call := Checked Fault

abbrev DataBuf := Bytes

abbrev Msg := List DataBuf

/-- `RcvFn`: from the request and what `rsp` holds before the call, what it holds after. -/
abbrev RcvFn := Msg → Msg → Except Fault Msg

/-! ### Log levels and dumps -/

namespace LogLevel

/-- `rt::ll::STRING_MEM`. -/
def stringMem : ℕ := 5

end LogLevel

/-- `VLOG(level) << text`: the text is only computed when the verbosity reaches the level. -/
def vlog (verbosity level : ℕ) (text : Call String) : Call Unit :=
  if level ≤ verbosity then do
    let _ ← text
    pure ()
  else pure ()

/-- `if (cond) { VLOG(level) << text; }`. -/
def vlogIf (cond : Prop) [Decidable cond] (verbosity level : ℕ) (text : Call String) : Call Unit :=
  if cond then vlog verbosity level text else pure ()

def hexByte (b : UInt8) : String :=
  String.ofList [Nat.digitChar (b.toNat / 16), Nat.digitChar (b.toNat % 16)]

/-- `DataBuf::bytesToHex(buf._addr, len)`: reads the first `len` bytes. -/
def bytesToHex (buf : DataBuf) (len : ℕ) : Call String := do
  Checked.access len buf.length
  pure ("0x" ++ String.join ((buf.take len).map hexByte))

/-- `min(100UL, buf._len)`, the bound of the dumps. -/
def dumpLen (buf : DataBuf) : ℕ := min 100 buf.length

@[simp] theorem bytesToHex_val (buf : DataBuf) (len : ℕ) :
    (bytesToHex buf len).val = .ok ("0x" ++ String.join ((buf.take len).map hexByte)) := rfl

@[simp] theorem safe_bytesToHex {buf : DataBuf} {len : ℕ} :
    (bytesToHex buf len).Safe ↔ len ≤ buf.length := by
  simp [bytesToHex, Checked.safe_bind]

theorem vlog_val {verbosity level : ℕ} {text : Call String} {s : String}
    (h : text.val = .ok s) : (vlog verbosity level text).val = .ok () := by
  unfold vlog
  split
  · rw [Checked.val_bind_ok h]
    rfl
  · rfl

theorem safe_vlog {verbosity level : ℕ} {text : Call String} :
    (vlog verbosity level text).Safe ↔ (level ≤ verbosity → text.Safe) := by
  unfold vlog
  split
  · rename_i h
    simp [Checked.safe_bind, h]
  · rename_i h
    simp [h]

theorem vlogIf_val {cond : Prop} [Decidable cond] {verbosity level : ℕ} {text : Call String}
    (h : cond → ∃ s, text.val = .ok s) : (vlogIf cond verbosity level text).val = .ok () := by
  unfold vlogIf
  split
  · rename_i hcond
    obtain ⟨s, hs⟩ := h hcond
    exact vlog_val hs
  · rfl

theorem safe_vlogIf {cond : Prop} [Decidable cond] {verbosity level : ℕ} {text : Call String} :
    (vlogIf cond verbosity level text).Safe ↔ (cond → level ≤ verbosity → text.Safe) := by
  unfold vlogIf
  split
  · rename_i h
    simp [safe_vlog, h]
  · rename_i h
    simp [h]

/-! ### Reading messages -/

/-- `xs[i]` on a vector; outside it the read is out of bounds and the behaviour undefined. -/
def vecAt {α : Type} (xs : List α) (i : ℕ) : Call α := do
  Checked.access (i + 1) xs.length
  match xs[i]? with
  | some x => pure x
  | none => Checked.fail .outOfRange

theorem vecAt_val {α : Type} {xs : List α} {i : ℕ} {x : α} (h : xs[i]? = some x) :
    (vecAt xs i).val = .ok x := by
  rw [vecAt, Checked.val_bind_ok (Checked.val_access _ _), h]
  rfl

theorem safe_vecAt {α : Type} {xs : List α} {i : ℕ} (h : i < xs.length) : (vecAt xs i).Safe := by
  rw [vecAt, Checked.safe_bind_ok (Checked.val_access _ _)]
  refine ⟨Checked.safe_access.mpr h, ?_⟩
  rw [List.getElem?_eq_getElem h]
  exact Checked.safe_pure _

/-- `std::string(buf._addr, buf._len)`: copies the whole buffer. -/
def toStr (buf : DataBuf) : Call Bytes := do
  Checked.access buf.length buf.length
  pure buf

@[simp] theorem toStr_val (buf : DataBuf) : (toStr buf).val = .ok buf := rfl

@[simp] theorem safe_toStr (buf : DataBuf) : (toStr buf).Safe := by
  simp [toStr, Checked.safe_bind]

/-- The `len` bytes from `buf._addr` on; `after` is what memory holds beyond the buffer. -/
def load (buf : DataBuf) (after : ℕ → UInt8) (len : ℕ) : Call Bytes := do
  Checked.access len buf.length
  pure ((buf ++ (List.range len).map after).take len)

@[simp] theorem load_val (buf : DataBuf) (after : ℕ → UInt8) (len : ℕ) :
    (load buf after len).val = .ok ((buf ++ (List.range len).map after).take len) := rfl

@[simp] theorem safe_load {buf : DataBuf} {after : ℕ → UInt8} {len : ℕ} :
    (load buf after len).Safe ↔ len ≤ buf.length := by
  simp [load, Checked.safe_bind]

/-- `memcmp` on the bytes it is given: the difference of the first two that differ. -/
def memcmp : Bytes → Bytes → ℤ
  | a :: as, b :: bs => if a = b then memcmp as bs else (a.toNat : ℤ) - b.toNat
  | _, _ => 0

theorem memcmp_eq_zero : ∀ {as bs : Bytes}, as.length = bs.length →
    (memcmp as bs = 0 ↔ as = bs) := by
  intro as
  induction as with
  | nil =>
      intro bs h
      rw [List.length_nil] at h
      simp [memcmp, List.eq_nil_of_length_eq_zero h.symm]
  | cons a as ih =>
      intro bs h
      cases bs with
      | nil => simp at h
      | cons b bs =>
          rw [memcmp]
          split
          · rename_i hab
            rw [ih (by simpa using h), hab]
            simp
          · rename_i hab
            have hne : a.toNat ≠ b.toNat := fun he => hab (UInt8.toNat_inj.mp he)
            simp only [List.cons.injEq, hab, false_and, iff_false]
            omega

/-! ### Machine arithmetic -/

/-- Addition of two `int`s. -/
def intAdd (a b : Int32) : Call Int32 :=
  if -2 ^ 31 ≤ a.toInt + b.toInt ∧ a.toInt + b.toInt < 2 ^ 31 then
    pure (Int32.ofInt (a.toInt + b.toInt))
  else Checked.fail .signedOverflow

/-- `std::make_unique<uint8_t[]>(len)`: a negative length converts to a `size_t` that no allocation
can meet; otherwise the length of the array. -/
def makeBuf (len : Int32) : Call ℕ :=
  if len.toInt < 0 then Checked.fail .badAlloc else pure len.toInt.toNat

@[simp] theorem safe_intAdd (a b : Int32) : (intAdd a b).Safe := by
  unfold intAdd
  split <;> simp

@[simp] theorem safe_makeBuf (len : Int32) : (makeBuf len).Safe := by
  unfold makeBuf
  split <;> simp

theorem makeBuf_val {len : Int32} (h : 0 ≤ len.toInt) :
    (makeBuf len).val = .ok len.toInt.toNat := by
  rw [makeBuf, if_neg (by omega)]
  rfl

theorem makeBuf_neg {len : Int32} (h : len.toInt < 0) : (makeBuf len).val = .error .badAlloc := by
  rw [makeBuf, if_pos h]
  rfl

/-- The loop bound `blockCount + 1`. -/
theorem intAdd_one {c : Int32} (h : c.toInt < 2 ^ 31 - 1) :
    ∃ b, (intAdd c 1).val = .ok b ∧ b.toInt = c.toInt + 1 := by
  have hlow := Int32.le_toInt c
  have hone : (1 : Int32).toInt = 1 := by decide
  refine ⟨Int32.ofInt (c.toInt + 1), ?_, Int32.toInt_ofInt_of_le (by omega) (by omega)⟩
  rw [intAdd, hone, if_pos ⟨by omega, by omega⟩]
  rfl

theorem intAdd_one_overflow {c : Int32} (h : c.toInt = 2 ^ 31 - 1) :
    (intAdd c 1).val = .error .signedOverflow := by
  have hone : (1 : Int32).toInt = 1 := by decide
  rw [intAdd, hone, if_neg (by omega)]
  rfl

end RpcTransport

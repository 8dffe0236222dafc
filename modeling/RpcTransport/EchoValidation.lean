import RpcTransport.Client

/-!
# What the echo validator tells apart

`EchoReplyValidator::isValid` is meant to accept a reply exactly when its data buffers are the
request's.  It compares as many bytes as the request's buffer has and never looks at the length of
the reply's, so a reply buffer that goes on after the request's bytes passes, and so does a shorter
one when memory happens to go on with the missing bytes.

* `isValid_eq_true_iff` — the replies the validator accepts;
* `isValid_exact_iff` — the messages, and the memory behind them, on which it answers correctly;
* `isValid_exact_forall_iff` — the messages on which it answers correctly whatever is in memory.
-/

namespace RpcTransport

/-- The same number of buffers, and the same data in each of them after the header. -/
def SameEcho (req reply : Msg) : Prop :=
  req.length = reply.length ∧ ∀ i, 1 ≤ i → i < req.length → reply[i]? = req[i]?

/-- A reply with other data than the request's whose buffers all begin, with the memory behind
them, with the request's bytes. -/
structure Disguised (after : Beyond) (req reply : Msg) : Prop where
  length_eq : req.length = reply.length
  matches_all : ∀ i, 1 ≤ i → i < req.length → MatchesAt after req reply i
  differs : ∃ i, 1 ≤ i ∧ i < req.length ∧ reply[i]? ≠ req[i]?

/-- Where the buffers are equal, they match, whatever is behind them. -/
theorem SameEcho.matchesAt {after : Beyond} {req reply : Msg} (h : SameEcho req reply) {i : ℕ}
    (hi : 1 ≤ i) (hlt : i < req.length) : MatchesAt after req reply i := by
  unfold MatchesAt
  rw [List.getD_eq_getElem?_getD, h.2 i hi hlt, ← List.getD_eq_getElem?_getD]
  exact startsWith_self _ _

theorem mem_visited {n i : ℕ} : i ∈ List.range' 1 (n - 1) ↔ 1 ≤ i ∧ i < n := by
  rw [List.mem_range'_1]
  omega

/-- **The replies the validator accepts**: fewer than `2^32` buffers, as many as the request, and
all matching. -/
theorem isValid_eq_true_iff (verbosity : ℕ) (after : Beyond) (req reply : Msg) :
    (EchoReplyValidator.isValid verbosity after req reply).val = .ok true ↔
      req.length = reply.length ∧ req.length < 2 ^ 32 ∧
        ∀ i, 1 ≤ i → i < req.length → MatchesAt after req reply i := by
  unfold EchoReplyValidator.isValid
  split_ifs with hlen hsmall
  · simp only [Checked.val_pure, Except.ok.injEq, Bool.false_eq_true, false_iff]
    exact fun h => hlen h.1
  · rw [EchoReplyValidator.compareBufs_val after (not_not.mp hlen) _
      fun i hi => (mem_visited.mp hi).2]
    simp only [Except.ok.injEq, decide_eq_true_eq, mem_visited, and_imp]
    exact ⟨fun h => ⟨not_not.mp hlen, hsmall, h⟩, fun h => h.2.2⟩
  · have hvisit : ∀ i ∈ List.range' 1 (2 ^ 32 - 1) ++ [0], i < req.length := by
      intro i hi
      rcases List.mem_append.mp hi with hi | hi
      · have := (mem_visited.mp hi).2
        omega
      · rw [List.mem_singleton.mp hi]
        omega
    rw [Checked.val_bind_ok
      (EchoReplyValidator.compareBufs_val after (not_not.mp hlen) _ hvisit)]
    constructor
    · intro h
      split at h <;> cases h
    · exact fun h => absurd h.2.1 hsmall

/-- Below `2^32` buffers the validator is wrong on exactly the disguised replies. -/
theorem isValid_exact_iff_of_lt (verbosity : ℕ) (after : Beyond) {req reply : Msg}
    (hsmall : req.length < 2 ^ 32) :
    ((EchoReplyValidator.isValid verbosity after req reply).val = .ok true ↔ SameEcho req reply) ↔
      ¬ Disguised after req reply := by
  rw [isValid_eq_true_iff]
  constructor
  · intro hexact hdis
    obtain ⟨i, hi, hlt, hne⟩ := hdis.differs
    exact hne ((hexact.mp ⟨hdis.length_eq, hsmall, hdis.matches_all⟩).2 i hi hlt)
  · intro hdis
    constructor
    · rintro ⟨hlen, -, hmatch⟩
      refine ⟨hlen, fun i hi hlt => ?_⟩
      by_contra hne
      exact hdis ⟨hlen, hmatch, i, hi, hlt, hne⟩
    · intro hsame
      exact ⟨hsame.1, hsmall, fun i hi hlt => hsame.matchesAt hi hlt⟩

/-- **When the echo verification is exact.**  Below `2^32` buffers the validator is wrong on exactly
the disguised replies.  From there on its index wraps around and it accepts nothing, so it is right
on exactly the replies that do differ.  A reply buffer that is shorter than the request's is read
past its end, here as in the code: whether the reply is disguised then depends on the memory. -/
theorem isValid_exact_iff (verbosity : ℕ) (after : Beyond) (req reply : Msg) :
    ((EchoReplyValidator.isValid verbosity after req reply).val = .ok true ↔ SameEcho req reply) ↔
      if req.length < 2 ^ 32 then ¬ Disguised after req reply else ¬ SameEcho req reply := by
  split_ifs with hsmall
  · exact isValid_exact_iff_of_lt verbosity after hsmall
  · rw [isValid_eq_true_iff]
    constructor
    · intro hexact hsame
      exact hsmall (hexact.mpr hsame).2.1
    · intro hsame
      exact ⟨fun h => absurd h.2.1 hsmall, fun h => absurd h hsame⟩

/-- A reply that carries one byte more than was sent is accepted. -/
theorem isValid_accepts_longer :
    ¬ ((EchoReplyValidator.isValid 0 (fun _ _ => 0) [[0], [1]] [[0], [1, 2]]).val = .ok true ↔
      SameEcho [[0], [1]] [[0], [1, 2]]) := by
  intro h
  have hsame := h.mp rfl
  exact absurd (hsame.2 1 le_rfl (by decide)) (by decide)

/-- On replies whose data buffers are as long as the request's the validator is never wrong. -/
theorem not_disguised_of_lengths {after : Beyond} {req reply : Msg}
    (h : ∀ i, 1 ≤ i → i < req.length → (reply.getD i []).length = (req.getD i []).length) :
    ¬ Disguised after req reply := by
  intro hdis
  obtain ⟨i, hi, hlt, hne⟩ := hdis.differs
  have hlt' : i < reply.length := hdis.length_eq ▸ hlt
  have heq := (hdis.matches_all i hi hlt).eq_of_length (h i hi hlt)
  refine hne ?_
  rw [List.getElem?_eq_getElem hlt, List.getElem?_eq_getElem hlt']
  simpa [List.getD_eq_getElem?_getD, hlt, hlt'] using heq

/-! ### Whatever is in memory -/

/-- Byte by byte: the buffer as far as it goes, and then the memory behind it. -/
theorem startsWith_iff_forall {buf want : DataBuf} {after : ℕ → UInt8} :
    StartsWith buf after want ↔ ∀ k (hk : k < want.length),
      (if hbuf : k < buf.length then buf[k] else after (k - buf.length)) = want[k] := by
  have hlen : ((buf ++ (List.range want.length).map after).take want.length).length
      = want.length := by
    simp only [List.length_take, List.length_append, List.length_map, List.length_range]
    omega
  rw [StartsWith, List.ext_getElem_iff, and_iff_right hlen]
  refine forall_congr' fun k => ⟨fun h hk => ?_, fun h _ hk => ?_⟩
  · simpa [List.getElem_append] using h (hlen.symm ▸ hk) hk
  · simpa [List.getElem_append] using h hk

/-- A byte that both buffers have is another one. -/
def DiffersAt (req reply : Msg) (i : ℕ) : Prop :=
  ∃ k, ∃ (hreq : k < (req.getD i []).length) (hreply : k < (reply.getD i []).length),
    (reply.getD i [])[k] ≠ (req.getD i [])[k]

/-- Unless a byte that both have differs, there is a memory with which the reply's buffers match. -/
theorem exists_matchesAt_iff (req reply : Msg) (is : ℕ → Prop) :
    (∃ after : Beyond, ∀ i, is i → MatchesAt after req reply i) ↔
      ∀ i, is i → ¬ DiffersAt req reply i := by
  simp only [MatchesAt, startsWith_iff_forall]
  constructor
  · rintro ⟨after, h⟩ i hi ⟨k, hreq, hreply, hne⟩
    have hk := h i hi k hreq
    rw [dif_pos hreply] at hk
    exact hne hk
  · intro h
    refine ⟨fun i k => (req.getD i []).getD (k + (reply.getD i []).length) 0,
      fun i hi k hreq => ?_⟩
    split_ifs with hreply
    · by_contra hne
      exact h i hi ⟨k, hreq, hreply, hne⟩
    · show (req.getD i []).getD (k - (reply.getD i []).length + (reply.getD i []).length) 0 = _
      rw [Nat.sub_add_cancel (not_lt.mp hreply), List.getD_eq_getElem?_getD,
        List.getElem?_eq_getElem hreq, Option.getD_some]

/-- **When the echo verification is exact whatever is in memory**: when the messages differ in
their number of buffers or in a byte that both have, or all data buffers are as long as the
request's. -/
theorem isValid_exact_forall_iff (verbosity : ℕ) {req reply : Msg} (hsmall : req.length < 2 ^ 32) :
    (∀ after, (EchoReplyValidator.isValid verbosity after req reply).val = .ok true ↔
        SameEcho req reply) ↔
      req.length ≠ reply.length ∨ (∃ i, 1 ≤ i ∧ i < req.length ∧ DiffersAt req reply i) ∨
        ∀ i, 1 ≤ i → i < req.length → (reply.getD i []).length = (req.getD i []).length := by
  simp only [isValid_exact_iff_of_lt verbosity _ hsmall]
  constructor
  · intro h
    by_contra hnot
    push Not at hnot
    obtain ⟨hlen, hagree, i, hi, hlt, hne⟩ := hnot
    obtain ⟨after, hmatch⟩ := (exists_matchesAt_iff req reply fun i => 1 ≤ i ∧ i < req.length).mpr
      fun i hi => hagree i hi.1 hi.2
    refine h after ⟨hlen, fun i hi hlt => hmatch i ⟨hi, hlt⟩, i, hi, hlt, fun heq => hne ?_⟩
    rw [List.getD_eq_getElem?_getD, List.getD_eq_getElem?_getD, heq]
  · rintro (hlen | ⟨i, hi, hlt, hdiffers⟩ | hlengths) after
    · exact fun hdis => hlen hdis.length_eq
    · intro hdis
      exact (exists_matchesAt_iff req reply fun j => j = i).mp
        ⟨after, by rintro j rfl; exact hdis.matches_all j hi hlt⟩ i rfl hdiffers
    · exact not_disguised_of_lengths hlengths

end RpcTransport

import RpcTransport.Capnp
import RpcTransport.Lib.Fifo

/-!
# A stream of chunks

The client's request and the server's reply are streamed by the same recursion, over queues that
differ in how they wrap a call.  `Streaming` says where the buffers of a message are while its
stream is under way: those delivered, those in the queue, and those the recursion has yet to send;
`done` is in the queue only behind all of them.

When the connection breaks the queue loses its end, so only what is still under way remains of this.
-/

namespace RpcTransport

open Fifo (Passing)

/-- The recursion has not indexed past the message, and its `done` has not returned. -/
def ChunkPc.Underway (m : Msg) : ChunkPc → Prop
  | .send k => k ≤ m.length
  | .sent k => k < m.length
  | .doneSent => True
  | .finished => False
  | .outOfRange => False

/-- The buffers the recursion has yet to send. -/
def ChunkPc.rest (m : Msg) : ChunkPc → Msg
  | .send k => m.drop k
  | .sent k => m.drop (k + 1)
  | _ => []

/-- How many rounds, acknowledgements and returns are left of a stream, started or not. -/
def streamWork (m : Msg) : Option ChunkPc → ℕ
  | none => 2 * m.length + 3
  | some (.send k) => 2 * (m.length - k) + 2
  | some (.sent k) => 2 * (m.length - k) + 1
  | some .doneSent => 1
  | some .finished => 0
  | some .outOfRange => 0

/-- One round sends `done` when nothing is left, and else the next buffer. -/
theorem sendStream_cases {m : Msg} {k : ℕ} (hk : k ≤ m.length) :
    (m.drop k = [] ∧ sendStream m k = (.doneSent, [.done])) ∨
      ∃ buf, k < m.length ∧ m.drop k = buf :: m.drop (k + 1) ∧
        sendStream m k = (.sent k, [.sendChunk buf]) := by
  rcases eq_or_lt_of_le hk with heq | hlt
  · refine .inl ⟨List.drop_eq_nil_of_le heq.ge, ?_⟩
    rw [sendStream, if_pos heq]
  · refine .inr ⟨m[k], hlt, List.drop_eq_getElem_cons hlt, ?_⟩
    rw [sendStream, if_neg (Nat.ne_of_lt hlt), List.getElem?_eq_getElem hlt]

variable {μ : Type}

/-- The stream of `m` is under way: `delivered` has arrived, and the rest is in `queue`, whose
messages wrap the calls by `call`, or still to be sent. -/
structure Streaming (call : ChunkCall → μ) (m delivered : Msg) (pc : ChunkPc) (queue : List μ)
    (connected : Bool) : Prop where
  underway : pc.Underway m
  passing : ∃ chunks last unsent, queue = chunks ++ last ∧
    Passing (fun buf => call (.sendChunk buf)) m delivered chunks unsent ∧
    (last = [] ∨ last = [call .done] ∧ pc = .doneSent ∧ unsent = []) ∧
    (connected = true →
      unsent = pc.rest m ∧ last = if pc = .doneSent then [call .done] else [])

namespace Streaming

variable {call : ChunkCall → μ} {m delivered : Msg} {pc : ChunkPc} {queue : List μ}
variable {connected : Bool} {k : ℕ}

theorem start (call : ChunkCall → μ) (m : Msg) (connected : Bool) :
    Streaming call m [] (.send 0) [] connected :=
  ⟨Nat.zero_le _, [], [], m, rfl, .start m, .inl rfl, fun _ => ⟨rfl, rfl⟩⟩

theorem prefix_of (h : Streaming call m delivered pc queue connected) : delivered <+: m := by
  obtain ⟨chunks, last, unsent, -, hpassing, -⟩ := h.passing
  exact hpassing.prefix_of

/-- The next round of the recursion. -/
theorem send (h : Streaming call m delivered (.send k) queue connected)
    (hconn : connected = true) :
    Streaming call m delivered (sendStream m k).1 (queue ++ (sendStream m k).2.map call)
      connected := by
  subst hconn
  obtain ⟨chunks, last, unsent, hqueue, hpassing, -, hrest⟩ := h.passing
  obtain ⟨rfl, rfl⟩ := hrest rfl
  rw [if_neg (by simp), List.append_nil] at hqueue
  rcases sendStream_cases h.underway with ⟨hnil, hround⟩ | ⟨buf, hlt, hcons, hround⟩
  · rw [hround]
    refine ⟨trivial, chunks, [call .done], [], ?_, ?_, .inr ⟨rfl, rfl, rfl⟩, fun _ => ⟨rfl, rfl⟩⟩
    · rw [hqueue]
      rfl
    · rw [ChunkPc.rest, hnil] at hpassing
      exact hpassing
  · rw [hround]
    refine ⟨hlt, chunks ++ [call (.sendChunk buf)], [], m.drop (k + 1), ?_, ?_, .inl rfl,
      fun _ => ⟨rfl, rfl⟩⟩
    · rw [hqueue, List.append_nil]
      rfl
    · rw [ChunkPc.rest, hcons] at hpassing
      exact hpassing.push

/-- The promise of a chunk is fulfilled. -/
theorem ack (h : Streaming call m delivered (.sent k) queue connected)
    (hconn : connected = true) : Streaming call m delivered (.send (k + 1)) queue connected := by
  subst hconn
  obtain ⟨chunks, last, unsent, hqueue, hpassing, -, hrest⟩ := h.passing
  obtain ⟨rfl, rfl⟩ := hrest rfl
  exact ⟨h.underway, chunks, [], m.drop (k + 1), hqueue, hpassing, .inl rfl,
    fun _ => ⟨rfl, rfl⟩⟩

/-- The first message in the queue is the next buffer, or `done` after the last one. -/
theorem pop {msg : μ} {ms : List μ} (h : Streaming call m delivered pc (msg :: ms) connected) :
    (∃ buf, msg = call (.sendChunk buf) ∧ delivered.length < m.length ∧
        Streaming call m (delivered ++ [buf]) pc ms connected) ∨
      (msg = call .done ∧ ms = [] ∧ pc = .doneSent ∧ delivered = m) := by
  obtain ⟨hunderway, chunks, last, unsent, hqueue, hpassing, hlast, hrest⟩ := h
  cases chunks with
  | nil =>
      rw [List.nil_append] at hqueue
      rcases hlast with rfl | ⟨rfl, hpc, rfl⟩
      · cases hqueue
      · obtain ⟨rfl, rfl⟩ := List.cons.inj hqueue
        refine .inr ⟨rfl, rfl, hpc, ?_⟩
        rw [hpassing.whole_eq, List.append_nil]
  | cons chunk chunks =>
      obtain ⟨rfl, rfl⟩ := List.cons.inj hqueue
      have hlen := hpassing.length_eq
      rw [List.length_cons] at hlen
      obtain ⟨buf, -, hbuf, hpassing'⟩ := hpassing.pop
      exact .inl ⟨buf, hbuf, by omega, hunderway, chunks, last, unsent, rfl, hpassing', hlast,
        hrest⟩

/-- With nothing in the queue the recursion has a round to make or a promise to wait for. -/
theorem pc_of_empty (h : Streaming call m delivered pc [] connected) (hconn : connected = true) :
    (∃ k, pc = .send k) ∨ ∃ k, pc = .sent k := by
  obtain ⟨hunderway, chunks, last, unsent, hqueue, -, -, hrest⟩ := h
  cases pc with
  | send k => exact .inl ⟨k, rfl⟩
  | sent k => exact .inr ⟨k, rfl⟩
  | doneSent =>
      rw [(hrest hconn).2, if_pos rfl] at hqueue
      simp at hqueue
  | finished => exact hunderway.elim
  | outOfRange => exact hunderway.elim

/-- The connection breaks, and the queue loses all but its first `j` messages. -/
theorem lose (h : Streaming call m delivered pc queue connected) (j : ℕ) :
    Streaming call m delivered pc (queue.take j) false := by
  obtain ⟨hunderway, chunks, last, unsent, rfl, hpassing, hlast, -⟩ := h
  obtain ⟨unsent', hpassing', hall⟩ := hpassing.lose j
  refine ⟨hunderway, chunks.take j, last.take (j - chunks.length), unsent', List.take_append,
    hpassing', ?_, by simp⟩
  rcases hlast with rfl | ⟨rfl, hpc, rfl⟩
  · exact .inl List.take_nil
  · -- `done` is kept only with all the chunks before it
    rcases Nat.le_total j chunks.length with hle | hge
    · rw [Nat.sub_eq_zero_of_le hle]
      exact .inl rfl
    · rcases Nat.eq_or_lt_of_le hge with heq | hlt
      · rw [← heq, Nat.sub_self]
        exact .inl rfl
      · refine .inr ⟨List.take_of_length_le ?_, hpc, hall hge⟩
        rw [List.length_singleton]
        omega

/-- A round leaves `done` unreturned. -/
theorem round_ne_finished (h : Streaming call m delivered (.send k) queue connected) :
    (sendStream m k).1 ≠ .finished := by
  rcases sendStream_cases h.underway with ⟨-, hround⟩ | ⟨buf, -, -, hround⟩ <;> simp [hround]

/-- Each round lowers the work. -/
theorem work_send (h : Streaming call m delivered (.send k) queue connected) :
    streamWork m (some (sendStream m k).1) < streamWork m (some (.send k)) := by
  rcases sendStream_cases h.underway with ⟨-, hround⟩ | ⟨buf, hlt, -, hround⟩
  · rw [hround]
    simp only [streamWork]
    omega
  · rw [hround]
    simp only [streamWork]
    omega

/-- And so does each acknowledgement. -/
theorem work_ack (h : Streaming call m delivered (.sent k) queue connected) :
    streamWork m (some (.send (k + 1))) < streamWork m (some (.sent k)) := by
  have hlt : k < m.length := h.underway
  simp only [streamWork]
  omega

end Streaming

end RpcTransport

import RpcTransport.Stream

/-!
# The deadline of the stream clients

`sendReq` gives its `ClientContext` a deadline of ten seconds, after the stub has created the call
with that context.  A call keeps the deadline it was created with, so this one never applies.

* `sendReqStep_of_over` — once a call is over, by a deadline for example, `sendReq` goes on to its
  end without blocking;
* `deadline_never_armed` — no call of these clients has a deadline, whatever the server does;
* `not_neverHangs` — for every request there is a server that leaves the client blocked for good.
-/

namespace RpcTransport

open Relation (ReflTransGen)

/-- What a server can do to a stream: read, write, finish, each at any time or never. -/
inductive PeerStep (st : Stream) : Stream → Prop
  | read {m : WireMsg} {ms : List WireMsg} (h : st.toServer = m :: ms) :
      PeerStep st { st with toServer := ms }
  | write (m : WireMsg) : PeerStep st { st with toClient := st.toClient ++ [m] }
  | finish (status : Status) : PeerStep st { st with status := some status }

/-- The deadline of a call passes: it is over, with the status `DEADLINE_EXCEEDED`. -/
inductive Expire (st : Stream) : Stream → Prop
  | mk {d : ℕ} (hcreated : st.created = true) (harmed : st.deadline = some d)
      (hopen : st.final = none) : Expire st (st.fail ⟨4, "Deadline Exceeded"⟩)

/-- A client against an arbitrary server, with the deadline running. -/
inductive OpenStep (x : CallSetup) (p : SendReq × Stream) : SendReq × Stream → Prop
  | client {q : SendReq × Stream} (h : sendReqStep x p.1 p.2 = some q) : OpenStep x p q
  | peer {st : Stream} (h : PeerStep p.2 st) : OpenStep x p (p.1, st)
  | expire {st : Stream} (h : Expire p.2 st) : OpenStep x p (p.1, st)

/-- `sendReq` has ended. -/
def ClientPc.ended : ClientPc → Bool
  | .returned => true
  | .threw _ => true
  | .crashed _ => true
  | _ => false

/-- The client is blocked in `Write`, `Read` or `Finish`. -/
def Blocked (x : CallSetup) (p : SendReq × Stream) : Prop :=
  p.1.pc.ended = false ∧ sendReqStep x p.1 p.2 = none

/-- Whenever the client is blocked, the deadline of its call can end the wait. -/
def NeverHangs (x : CallSetup) : Prop :=
  ∀ p, ReflTransGen (OpenStep x) ({}, {}) p → Blocked x p → ∃ st, Expire p.2 st

/-! ### What a deadline would do -/

/-- A call that is over blocks nobody. -/
theorem sendReqStep_of_over {x : CallSetup} {c : SendReq} {st : Stream}
    (hover : st.final.isSome = true) (hpc : c.pc.ended = false) :
    (sendReqStep x c st).isSome = true := by
  unfold sendReqStep
  cases hc : c.pc with
  | reqReply => rfl
  | setDeadline => rfl
  | write bufs => cases bufs <;> simp [hover]
  | read =>
      cases hqueue : st.toClient with
      | nil => simp [hover]
      | cons m ms => cases htake : m.takeData <;> simp [htake]
  | finish =>
      obtain ⟨status, hstatus⟩ := Option.isSome_iff_exists.mp hover
      by_cases hcode : status.code = 0 <;> simp [hstatus, hcode]
  | returned => rw [hc] at hpc; cases hpc
  | threw what => rw [hc] at hpc; cases hpc
  | crashed e => rw [hc] at hpc; cases hpc

/-- After the deadline has passed `sendReq` throws when it comes to `Finish`. -/
theorem finish_of_expired {x : CallSetup} {c : SendReq} {st st' : Stream} (hexp : Expire st st')
    (hpc : c.pc = .finish) :
    sendReqStep x c st'
      = some ({ c with pc := .threw "send failed: (4) Deadline Exceeded" }, st') := by
  cases hexp with
  | mk hcreated harmed hopen =>
      obtain ⟨hstatus, hbroken⟩ := Option.or_eq_none_iff.mp hopen
      simp only [sendReqStep, hpc, Stream.final, Stream.fail, hstatus, hbroken, Option.none_or]
      rfl

/-! ### There is none -/

/-- The context has no deadline before the call is created, and the call none ever. -/
theorem deadline_never_armed {x : CallSetup} {p : SendReq × Stream}
    (h : ReflTransGen (OpenStep x) ({}, {}) p) :
    (p.1.pc = .reqReply → p.1.context = none) ∧ p.2.deadline = none := by
  induction h with
  | refl => exact ⟨fun _ => rfl, rfl⟩
  | @tail p q _ hstep ih =>
      obtain ⟨hcontext, hdeadline⟩ := ih
      cases hstep with
      | @client q h =>
          obtain ⟨c, st⟩ := q
          cases sendReqStep_cases h with
          | reqReply hpc => exact ⟨ClientPc.noConfusion, hcontext hpc⟩
          | read hpc _ _ =>
              exact ⟨fun hpc' => ClientPc.noConfusion (hpc.symm.trans hpc'), hdeadline⟩
          | _ => exact ⟨ClientPc.noConfusion, hdeadline⟩
      | peer h => cases h <;> exact ⟨hcontext, hdeadline⟩
      | expire h =>
          cases h with
          | mk hcreated harmed hopen =>
              rw [hdeadline] at harmed
              cases harmed

/-! ### A silent server -/

/-- The state in which the client has written `i` buffers and the server has done nothing. -/
def unanswered (x : CallSetup) (i : ℕ) : SendReq × Stream :=
  ({ pc := .write (x.request.drop i), context := some (x.now + 10000) },
    { created := true, toServer := (x.request.take i).map x.transport.pack })

theorem reach_unanswered (x : CallSetup) : ∀ i, i ≤ x.request.length → i ≤ x.toServerWindow →
    ReflTransGen (OpenStep x) ({}, {}) (unanswered x i) := by
  intro i
  induction i with
  | zero => intro _ _; exact .tail (.tail .refl (.client rfl)) (.client rfl)
  | succ i ih =>
      intro hi hwindow
      refine .tail (ih (by omega) (by omega)) (.client ?_)
      simp only [sendReqStep, unanswered, List.drop_eq_getElem_cons hi]
      rw [if_neg (by simp [Stream.final]), if_pos, List.take_succ_eq_append_getElem hi,
        List.map_append]
      · rfl
      · simp only [List.length_map, List.length_take]
        omega

/-- **A blocked client.**  Against a server that does nothing the client fills its window and blocks
in `Write`, or writes the whole request and blocks in `Read`. -/
theorem exists_blocked (x : CallSetup) :
    ∃ p, ReflTransGen (OpenStep x) ({}, {}) p ∧ Blocked x p := by
  rcases Nat.lt_or_ge x.toServerWindow x.request.length with hlt | hge
  · refine ⟨_, reach_unanswered x x.toServerWindow hlt.le le_rfl, rfl, ?_⟩
    simp only [sendReqStep, unanswered, List.drop_eq_getElem_cons hlt]
    rw [if_neg (by simp [Stream.final]), if_neg]
    simp only [List.length_map, List.length_take]
    omega
  · have hreach := reach_unanswered x x.request.length le_rfl hge
    have hdone : sendReqStep x (unanswered x x.request.length).1 (unanswered x x.request.length).2
        = some ({ (unanswered x x.request.length).1 with pc := .read },
          { (unanswered x x.request.length).2 with halfClosed := true }) := by
      simp only [sendReqStep, unanswered, List.drop_length]
      rfl
    exact ⟨_, .tail hreach (.client hdone), rfl, rfl⟩

/-- **The client hangs.**  For every request, transport and window some run of `sendReq` ends in a
state in which it is blocked and no deadline will end the wait. -/
theorem not_neverHangs (x : CallSetup) : ¬ NeverHangs x := by
  intro hnever
  obtain ⟨p, hreach, hblocked⟩ := exists_blocked x
  obtain ⟨st, hexp⟩ := hnever p hreach hblocked
  cases hexp with
  | mk hcreated harmed hopen =>
      rw [(deadline_never_armed hreach).2] at harmed
      cases harmed

/-- A request of one byte over gRPC: the client waits for an answer that does not come. -/
theorem one_byte_hangs :
    ¬ NeverHangs ⟨.grpc, 1, 1, 0, [[7]], fun _ rsp => .ok rsp⟩ := by
  intro hnever
  have hreach : ReflTransGen (OpenStep ⟨.grpc, 1, 1, 0, [[7]], fun _ rsp => .ok rsp⟩) ({}, {})
      ({ pc := .read, context := some 10000 },
        { created := true, toServer := [⟨some [7]⟩], halfClosed := true }) :=
    .tail (.tail (.tail (.tail .refl (.client rfl)) (.client rfl)) (.client rfl)) (.client rfl)
  obtain ⟨st, hexp⟩ := hnever _ hreach ⟨rfl, rfl⟩
  cases hexp with
  | mk hcreated harmed hopen => cases harmed

end RpcTransport

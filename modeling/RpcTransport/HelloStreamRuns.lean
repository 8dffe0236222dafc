import Mathlib.Data.List.Basic
import RpcTransport.HelloStream
import RpcTransport.Lib.Transition

/-!
# Runs of the streaming sample

* `Inv.step` — every move keeps the replies as `ReplyOk` says, and the object as the calls that have
  reached it have left it;
* `work_lt` — and lowers the work that is left;
* `replies_replay` — at any time each reply is a beginning of the list, and when it is closed it has
  all strings from before its own `done`;
* `replies_delivered` — every session ends, with every reply closed;
* `sample_echoed` — the client of the sample gets back exactly what it has sent.
-/

namespace RpcTransport.HelloStream

open Transition (Run Delivers sum_map_set_lt)

variable {script : List Call} {flow : ℕ} {s s' : Session} {ls : List Unit}

/-- A client that has all of `script` before it. -/
def Session.start (script : List Call) : Session where
  toSend := script

/-- The calls `calls` have reached the server. -/
structure Inv (script : List Call) (s : Session) (calls : List Call) : Prop where
  script : script = calls ++ (s.toServer ++ s.toSend)
  req : s.req = calls.foldl ReqSvcImpl.call {}
  count : s.replies.length = calls.count .done
  replies : ∀ j r, s.replies[j]? = some r → ReplyOk calls j r

theorem Inv.start (script : List Call) : Inv script (Session.start script) [] :=
  ⟨rfl, rfl, rfl, by simp [Session.start]⟩

theorem Inv.vec {calls : List Call} (h : Inv script s calls) : s.req.vec = chunks calls := by
  rw [h.req]
  exact vec_foldl calls

theorem Inv.size {calls : List Call} (h : Inv script s calls) :
    (chunks calls).length ≤ (chunks script).length := by
  rw [h.script, chunks_append, List.length_append]
  exact Nat.le_add_right _ _

/-- One reply changes. -/
theorem Inv.set {calls : List Call} (h : Inv script s calls) {j : ℕ} {r : Reply}
    (hr : ReplyOk calls j r) : Inv script { s with replies := s.replies.set j r } calls := by
  refine ⟨h.script, h.req, by rw [List.length_set]; exact h.count, fun k q hq => ?_⟩
  rw [List.getElem?_set] at hq
  split_ifs at hq with hjk hlt
  · cases hq
    exact hjk ▸ hr
  · exact h.replies k q hq

/-- **Every move** keeps what is known. -/
theorem Inv.step (hsize : (chunks script).length < 2 ^ 32) {calls : List Call}
    (h : Inv script s calls) (hstep : Step flow () s s') : ∃ calls', Inv script s' calls' := by
  have hfold : ∀ c, (calls ++ [c]).foldl ReqSvcImpl.call {} = ReqSvcImpl.call s.req c := by
    intro c
    rw [List.foldl_append, h.req]
    rfl
  cases hstep with
  | send hnext hflow =>
      refine ⟨calls, ?_, h.req, h.count, h.replies⟩
      rw [h.script, hnext]
      simp
  | @sendChunk _ chunk cs hqueue =>
      refine ⟨calls ++ [Call.sendChunk chunk], ?_, (hfold (.sendChunk chunk)).symm, ?_,
        fun j r hr => ?_⟩
      · rw [h.script, hqueue]
        simp
      · rw [List.count_append, h.count]
        rfl
      · exact (h.replies j r hr).append _
  | @done _ cs hqueue =>
      refine ⟨calls ++ [Call.done], ?_, (hfold .done).symm, ?_, fun j r hr => ?_⟩
      · rw [h.script, hqueue]
        simp
      · rw [List.length_append, List.count_append, h.count]
        rfl
      · rw [List.getElem?_append] at hr
        split_ifs at hr with hlt
        · exact (h.replies j r hr).append _
        · -- the new reply is the last one
          obtain ⟨hj, rfl⟩ := List.getElem?_eq_some_iff.mp hr
          have hlen : j = s.replies.length := by
            rw [List.length_singleton] at hj
            omega
          have hask : Asked (calls ++ [.done]) j calls := ⟨[], rfl, by rw [hlen, h.count]⟩
          have hvec : s.req.vec = chunks (calls ++ [.done]) := by
            rw [h.vec, chunks_append, chunks_done, List.append_nil]
          rw [List.getElem_singleton, hvec]
          exact ReplyOk.start hask hask.length_le
  | next hr hpc hflow =>
      refine ⟨calls, h.set ?_⟩
      rw [h.vec]
      exact (h.replies _ _ hr).next (Nat.lt_of_le_of_lt h.size hsize) hpc
  | receive hr hwire => exact ⟨calls, h.set ((h.replies _ _ hr).receive hwire)⟩
  | returned hr hpc hclosed => exact ⟨calls, h.set ((h.replies _ _ hr).returned hclosed)⟩

theorem Inv.of_run (hsize : (chunks script).length < 2 ^ 32)
    (hrun : Run (Step flow) (Session.start script) ls s) : ∃ calls, Inv script s calls :=
  hrun.invariant (P := fun s => ∃ calls, Inv script s calls) ⟨[], Inv.start script⟩
    fun _ _ _ ⟨_, h⟩ hstep => h.step hsize hstep

/-! ### At any time -/

/-- The object of the server is as the calls that have reached it have left it, which are those that
are neither under way nor still to be made.  Every reply is a beginning of its list; a closed one
has all strings from before its own `done`, and the client has printed what it got. -/
structure Replays (script : List Call) (s : Session) : Prop where
  reached : ∃ calls, script = calls ++ (s.toServer ++ s.toSend) ∧
    s.req = calls.foldl ReqSvcImpl.call {} ∧ s.replies.length = calls.count .done
  kept : s.req.vec <+: chunks script
  ordered : ∀ r ∈ s.replies, r.svc.vec <+: s.req.vec
  closed : ∀ j r, s.replies[j]? = some r → r.closed = true → ∃ pre, Asked script j pre ∧
    chunks pre <+: r.svc.vec ∧
    r.svc.out = received r.svc.vec ++ doneLines "Client" r.svc.vec
  inRange : ∀ r ∈ s.replies, r.pc ≠ .outOfRange

theorem ReplyOk.ordered {calls : List Call} {j : ℕ} {r : Reply} (h : ReplyOk calls j r) :
    r.svc.vec <+: chunks calls ∧ r.pc ≠ .outOfRange := by
  cases h with
  | streaming hask hlt hsent hout =>
      exact ⟨(List.prefix_append _ _).trans (hsent ▸ List.take_prefix _ _), by simp⟩
  | closing hask hpre hle hsent hout =>
      exact ⟨(List.prefix_append _ _).trans (hsent ▸ List.take_prefix _ _), by simp⟩
  | closed hpc hask hpre hle hsent hout =>
      refine ⟨hsent ▸ List.take_prefix _ _, ?_⟩
      rcases hpc with rfl | rfl
      · simp
      · simp

theorem ReplyOk.whole {calls : List Call} {j : ℕ} {r : Reply} (h : ReplyOk calls j r)
    (hclosed : r.closed = true) : ∃ pre, Asked calls j pre ∧ chunks pre <+: r.svc.vec ∧
      r.svc.out = received r.svc.vec ++ doneLines "Client" r.svc.vec := by
  cases h with
  | streaming => cases hclosed
  | closing => cases hclosed
  | @closed pc svc pre n hpc hask hpre hle hsent hout =>
      refine ⟨pre, hask, ?_, hout⟩
      obtain ⟨post, rfl, -⟩ := hask
      have hbegin : chunks pre <+: chunks (pre ++ .done :: post) := by
        rw [chunks_append]
        exact List.prefix_append _ _
      rw [hsent]
      exact (List.prefix_take_iff).mpr ⟨hbegin, hpre⟩

/-- **Each `done` is answered with the list.**  For any calls of a client in any order, with more of
them on their way while replies are under way, and any flow control. -/
theorem replies_replay (hsize : (chunks script).length < 2 ^ 32)
    (hrun : Run (Step flow) (Session.start script) ls s) : Replays script s := by
  obtain ⟨calls, h⟩ := Inv.of_run hsize hrun
  refine ⟨⟨calls, h.script, h.req, h.count⟩, ?_, fun r hr => ?_, fun j r hr hclosed => ?_,
    fun r hr => ?_⟩
  · rw [h.vec, h.script, chunks_append]
    exact List.prefix_append _ _
  · obtain ⟨j, hj⟩ := List.mem_iff_getElem?.mp hr
    rw [h.vec]
    exact (h.replies j r hj).ordered.1
  · obtain ⟨pre, hask, hpre, hout⟩ := (h.replies j r hr).whole hclosed
    rw [h.script]
    exact ⟨pre, hask.append _, hpre, hout⟩
  · obtain ⟨j, hj⟩ := List.mem_iff_getElem?.mp hr
    exact (h.replies j r hj).ordered.2

/-! ### To the end -/

/-- The client has made all its calls, they have reached the server, and every `done` of the server
has returned. -/
structure Quiet (s : Session) : Prop where
  sent : s.toSend = []
  delivered : s.toServer = []
  returned : ∀ r ∈ s.replies, r.pc = .returned

/-- **Never stuck.** -/
theorem Inv.progress {calls : List Call} (h : Inv script s calls) (hnot : ¬ Quiet s) :
    ∃ s', Step flow () s s' := by
  cases hserver : s.toServer with
  | cons c cs =>
      cases c with
      | sendChunk chunk => exact ⟨_, .sendChunk hserver⟩
      | done => exact ⟨_, .done hserver⟩
  | nil =>
      cases hclient : s.toSend with
      | cons c cs => exact ⟨_, .send hclient (by rw [hserver]; exact Nat.zero_le _)⟩
      | nil =>
          obtain ⟨r, hmem, hpc⟩ : ∃ r ∈ s.replies, r.pc ≠ .returned := by
            by_contra hall
            push Not at hall
            exact hnot ⟨hclient, hserver, hall⟩
          obtain ⟨j, hr⟩ := List.mem_iff_getElem?.mp hmem
          cases hok : h.replies j r hr with
          | @streaming strNum svc under pre hask hlt hsent hout =>
              cases under with
              | nil => exact ⟨_, .next hr rfl (Nat.zero_le _)⟩
              | cons str under => exact ⟨_, .receive hr rfl⟩
          | @closing svc under pre n hask hpre hle hsent hout =>
              cases under with
              | nil => exact ⟨_, .receive hr rfl⟩
              | cons str under => exact ⟨_, .receive hr rfl⟩
          | closed hends =>
              rcases hends with rfl | rfl
              · exact ⟨_, .returned hr rfl rfl⟩
              · exact absurd rfl hpc

/-- What is left to do for a reply, of a list of at most `n` strings. -/
def replyWork (n : ℕ) (r : Reply) : ℕ :=
  r.wire.length +
    match r.pc with
    | .sent strNum => 2 * (n - strNum.toNat) + 2
    | .doneSent => 1
    | .returned => 0
    | .outOfRange => 0

theorem replyWork_start {calls : List Call} {n : ℕ} (hn : (chunks calls).length ≤ n) :
    replyWork n (Reply.start (chunks calls)) ≤ 2 * n + 3 := by
  rw [replyWork, Reply.start]
  rcases sendStrings_cases calls 0 (Nat.zero_le _) with
    ⟨-, heq⟩ | ⟨str, -, -, heq⟩
  · rw [heq]
    simp only [List.length_singleton]
    omega
  · rw [heq]
    simp only [List.length_singleton]
    omega

theorem replyWork_next {calls : List Call} {j n : ℕ} {r : Reply} {strNum : UInt32}
    (hsize : (chunks calls).length < 2 ^ 32) (hn : (chunks calls).length ≤ n)
    (h : ReplyOk calls j r) (hpc : r.pc = .sent strNum) :
    replyWork n (r.next (chunks calls) strNum) < replyWork n r := by
  cases h with
  | @streaming k svc under pre hask hlt hsent hout =>
      cases hpc
      have hsucc : (strNum + 1).toNat = strNum.toNat + 1 := by
        rw [UInt32.toNat_add]
        exact Nat.mod_eq_of_lt (Nat.lt_of_le_of_lt hlt hsize)
      rw [replyWork, replyWork, Reply.next]
      rcases sendStrings_cases calls (strNum + 1) (by omega) with
        ⟨hend, heq⟩ | ⟨str, hlt', -, heq⟩
      · rw [heq]
        simp only [List.length_append, List.length_singleton]
        omega
      · rw [heq]
        simp only [List.length_append, List.length_singleton]
        omega
  | closing => cases hpc
  | closed hends =>
      rcases hends with rfl | rfl
      · cases hpc
      · cases hpc

theorem replyWork_receive {r : Reply} {c : Call} {cs : List Call} (n : ℕ)
    (hwire : r.wire = c :: cs) : replyWork n (r.receive cs c) < replyWork n r := by
  rw [replyWork, replyWork, hwire]
  cases c with
  | sendChunk chunk => exact Nat.add_lt_add_right (Nat.lt_succ_self _) _
  | done => exact Nat.add_lt_add_right (Nat.lt_succ_self _) _

/-- A bound on the moves that are left. -/
def work (script : List Call) (s : Session) : ℕ :=
  2 * s.toSend.length + s.toServer.length +
    (s.toServer ++ s.toSend).count .done * (2 * (chunks script).length + 4) +
    (s.replies.map (replyWork (chunks script).length)).sum

theorem work_set {j : ℕ} {r r' : Reply} (hr : s.replies[j]? = some r)
    (hlt : replyWork (chunks script).length r' < replyWork (chunks script).length r) :
    work script { s with replies := s.replies.set j r' } < work script s := by
  rw [work, work]
  exact Nat.add_lt_add_left (sum_map_set_lt hr hlt) _

/-- **Every move is work done.** -/
theorem work_lt (hsize : (chunks script).length < 2 ^ 32) {calls : List Call}
    (h : Inv script s calls) (hstep : Step flow () s s') : work script s' < work script s := by
  have hcalls : (chunks calls).length < 2 ^ 32 := Nat.lt_of_le_of_lt h.size hsize
  cases hstep with
  | send hnext hflow =>
      simp only [work, hnext, List.append_assoc, List.singleton_append, List.length_append,
        List.length_cons, List.length_nil]
      omega
  | sendChunk hqueue =>
      simp only [work, hqueue, List.cons_append, List.length_cons]
      rw [List.count_cons_of_ne (by simp)]
      omega
  | done hqueue =>
      have hstart := replyWork_start h.size
      rw [← h.vec] at hstart
      simp only [work, hqueue, List.cons_append, List.length_cons, List.count_cons_self,
        List.map_append, List.map_cons, List.map_nil, List.sum_append, List.sum_cons,
        List.sum_nil, Nat.succ_mul]
      omega
  | next hr hpc hflow =>
      refine work_set hr ?_
      rw [h.vec]
      exact replyWork_next hcalls h.size (h.replies _ _ hr) hpc
  | receive hr hwire => exact work_set hr (replyWork_receive _ hwire)
  | returned hr hpc hclosed =>
      refine work_set hr ?_
      rw [replyWork, replyWork, hpc]
      exact Nat.lt_succ_self _

/-- How a session ends: every call has reached the object, and every `done` has been answered with a
beginning of the list that has the strings from before it. -/
structure Replayed (script : List Call) (s : Session) : Prop where
  req : s.req = script.foldl ReqSvcImpl.call {}
  count : s.replies.length = script.count .done
  closed : ∀ j r, s.replies[j]? = some r → r.closed = true ∧ ∃ pre, Asked script j pre ∧
    chunks pre <+: r.svc.vec ∧ r.svc.vec <+: chunks script ∧
    r.svc.out = received r.svc.vec ++ doneLines "Client" r.svc.vec

theorem Inv.replayed {calls : List Call} (h : Inv script s calls) (hquiet : Quiet s) :
    Replayed script s := by
  have hcalls : script = calls := by
    have hscript := h.script
    rw [hquiet.sent, hquiet.delivered] at hscript
    simpa using hscript
  subst hcalls
  refine ⟨h.req, h.count, fun j r hr => ?_⟩
  have hok := h.replies j r hr
  have hclosed : r.closed = true := by
    have hpc := hquiet.returned r (List.mem_of_getElem? hr)
    cases hok with
    | streaming => cases hpc
    | closing => cases hpc
    | closed => rfl
  obtain ⟨pre, hask, hpre, hout⟩ := hok.whole hclosed
  exact ⟨hclosed, pre, hask, hpre, hok.ordered.1, hout⟩

theorem run_length_le (hsize : (chunks script).length < 2 ^ 32)
    (hrun : Run (Step flow) (Session.start script) ls s) :
    ls.count () ≤ 2 * script.length + script.count .done * (2 * (chunks script).length + 4) := by
  have hle := hrun.count_le (P := fun s => ∃ calls, Inv script s calls) () (work script)
    ⟨[], Inv.start script⟩ (fun _ _ _ ⟨_, h⟩ hstep => h.step hsize hstep)
    (fun _ _ ⟨_, h⟩ hstep => work_lt hsize h hstep) (fun j _ _ hne => absurd rfl hne)
  have hstart : work script (Session.start script)
      = 2 * script.length + script.count .done * (2 * (chunks script).length + 4) := by
    simp [work, Session.start]
  rw [hstart] at hle
  omega

/-- **Each `done` is answered in the end.** -/
theorem replies_delivered (flow : ℕ) (hsize : (chunks script).length < 2 ^ 32) :
    Delivers (Step flow) (Session.start script) ()
      (2 * script.length + script.count .done * (2 * (chunks script).length + 4))
      Quiet (Replayed script) := by
  refine ⟨fun ls s hrun => run_length_le hsize hrun, fun ls s hrun hnot => ?_,
    fun ls s hrun hquiet => ?_⟩
  · obtain ⟨calls, h⟩ := Inv.of_run hsize hrun
    exact h.progress hnot
  · obtain ⟨calls, h⟩ := Inv.of_run hsize hrun
    exact h.replayed hquiet

/-- Two `done` calls with a string between them. -/
def twoDones : List Call := [.sendChunk "a".toList, .done, .sendChunk "b".toList, .done]

theorem replies_delivered_two :
    Delivers (Step 1) (Session.start twoDones) () 24 Quiet (Replayed twoDones) :=
  replies_delivered 1 (by decide)

/-- The second string reaches the object before the first reply has ended, and is part of it. -/
theorem replies_replay_two : ∃ ls s, Run (Step 1) (Session.start twoDones) ls s ∧
    s.replies.map (fun r => (r.svc.vec, r.closed)) = [(["a".toList, "b".toList], true)] ∧
    Replays twoDones s := by
  have hfirst : Run (Step 1) (Session.start twoDones) _ _ :=
    ((((Run.refl.tail (.send rfl (Nat.zero_le _))).tail (.sendChunk rfl)).tail
      (.send rfl (Nat.zero_le _))).tail (.done rfl)).tail (.receive (j := 0) rfl rfl)
  have hsecond := (((hfirst.tail (.send rfl (Nat.zero_le _))).tail (.sendChunk rfl)).tail
    (.next (j := 0) rfl rfl (Nat.zero_le _))).tail (.receive (j := 0) rfl rfl)
  have hrun := (hsecond.tail (.next (j := 0) rfl rfl (Nat.zero_le _))).tail
    (.receive (j := 0) rfl rfl)
  exact ⟨_, _, hrun, by decide, replies_replay (by decide) hrun⟩

/-! ### The client of the sample -/

/-- `"Test " + std::to_string(strNum)`. -/
def testText (strNum : UInt32) : Text := "Test ".toList ++ Nat.toDigits 10 strNum.toNat

theorem sub_succ_lt {strNum stopNum : UInt32} (h : strNum ≠ stopNum) :
    (stopNum - (strNum + 1)).toNat + 1 = (stopNum - strNum).toNat := by
  have hne : strNum.toNat ≠ stopNum.toNat := fun heq => h (UInt32.toNat_inj.mp heq)
  have h₁ := strNum.toNat_lt
  have h₂ := stopNum.toNat_lt
  have hone : (1 : UInt32).toNat = 1 := rfl
  simp only [UInt32.toNat_sub, UInt32.toNat_add, hone]
  omega

/-- The calls of `sendStrings` of the client. -/
def clientCalls (strNum stopNum : UInt32) : List Call :=
  if h : strNum = stopNum then [.done]
  else
    have : (stopNum - (strNum + 1)).toNat < (stopNum - strNum).toNat := by
      have := sub_succ_lt h
      omega
    .sendChunk (cStr (testText strNum)) :: clientCalls (strNum + 1) stopNum
termination_by (stopNum - strNum).toNat

/-- The strings it sends: from `strNum` on, up to `stopNum`. -/
def tests (strNum stopNum : UInt32) : List Text :=
  (List.range (stopNum - strNum).toNat).map fun k => testText (strNum + UInt32.ofNat k)

theorem tests_cons {strNum stopNum : UInt32} (h : strNum ≠ stopNum) :
    tests strNum stopNum = testText strNum :: tests (strNum + 1) stopNum := by
  rw [tests, ← sub_succ_lt h, List.range_succ_eq_map, List.map_cons, List.map_map, tests]
  refine congrArg₂ List.cons ?_ (List.map_congr_left fun k _ => ?_)
  · rw [show UInt32.ofNat 0 = 0 from rfl, UInt32.add_zero]
  · show testText (strNum + UInt32.ofNat (k + 1)) = testText (strNum + 1 + UInt32.ofNat k)
    rw [UInt32.ofNat_add, UInt32.add_assoc, UInt32.add_comm (UInt32.ofNat k)]
    rfl

theorem cStr_testText (strNum : UInt32) : cStr (testText strNum) = testText strNum := by
  rw [cStr, List.takeWhile_eq_self_iff]
  intro c hc
  rw [bne_iff_ne]
  rintro rfl
  rcases List.mem_append.mp hc with hword | hdigits
  · revert hword
    decide
  · have hdigit := Nat.isDigit_of_mem_toDigits (by decide) le_rfl hdigits
    revert hdigit
    decide

/-- **The calls of the client** are one for each string, and `done`. -/
theorem clientCalls_eq (strNum stopNum : UInt32) :
    clientCalls strNum stopNum = (tests strNum stopNum).map .sendChunk ++ [.done] := by
  fun_induction clientCalls strNum stopNum with
  | case1 => simp [tests]
  | case2 strNum h _ ih => rw [ih, tests_cons h, cStr_testText, List.map_cons, List.cons_append]

theorem length_tests (strNum stopNum : UInt32) :
    (tests strNum stopNum).length = (stopNum - strNum).toNat := by
  rw [tests, List.length_map, List.length_range]

theorem chunks_tests (strNum stopNum : UInt32) :
    chunks ((tests strNum stopNum).map .sendChunk) = tests strNum stopNum := by
  have hid : ∀ str ∈ tests strNum stopNum, cStr str = str := by
    intro str hstr
    obtain ⟨k, -, rfl⟩ := List.mem_map.mp hstr
    exact cStr_testText _
  rw [chunks, List.filterMap_map]
  calc (tests strNum stopNum).filterMap (fun str => some (cStr str))
      = (tests strNum stopNum).map cStr := congrFun List.filterMap_eq_map _
    _ = (tests strNum stopNum).map id := List.map_congr_left hid
    _ = tests strNum stopNum := List.map_id _

/-- The client has got back what it has sent, and both sides have printed it. -/
structure Echoed (strNum stopNum : UInt32) (s : Session) : Prop where
  kept : s.req.vec = tests strNum stopNum
  echoed : ∃ r, s.replies = [r] ∧ r.closed = true ∧ r.svc.vec = tests strNum stopNum ∧
    r.svc.out = received (tests strNum stopNum) ++ doneLines "Client" (tests strNum stopNum)

/-- **The sample's client gets back exactly what it has sent**, whatever the two numbers are. -/
theorem sample_echoed (flow : ℕ) (strNum stopNum : UInt32) :
    Delivers (Step flow) (Session.start (clientCalls strNum stopNum)) ()
      (4 * (stopNum - strNum).toNat + 6) Quiet (Echoed strNum stopNum) := by
  have hchunks : chunks (clientCalls strNum stopNum) = tests strNum stopNum := by
    rw [clientCalls_eq, chunks_append, chunks_tests, chunks_done, List.append_nil]
  have hcount : (clientCalls strNum stopNum).count .done = 1 := by
    rw [clientCalls_eq, List.count_append, List.count_eq_zero.mpr (by simp)]
    rfl
  have hlength : (clientCalls strNum stopNum).length = (stopNum - strNum).toNat + 1 := by
    rw [clientCalls_eq, List.length_append, List.length_map, length_tests]
    rfl
  have hsize : (chunks (clientCalls strNum stopNum)).length < 2 ^ 32 := by
    rw [hchunks, length_tests]
    exact UInt32.toNat_lt _
  refine ⟨fun ls s hrun => ?_, fun ls s hrun hnot => ?_, fun ls s hrun hquiet => ?_⟩
  · have hle := run_length_le hsize hrun
    rw [hlength, hcount, hchunks, length_tests] at hle
    omega
  · obtain ⟨calls, h⟩ := Inv.of_run hsize hrun
    exact h.progress hnot
  · obtain ⟨calls, h⟩ := Inv.of_run hsize hrun
    have hend := h.replayed hquiet
    have hlen := hend.count
    rw [hcount] at hlen
    obtain ⟨r, hr⟩ := List.length_eq_one_iff.mp hlen
    obtain ⟨hclosed, pre, ⟨post, hsplit, -⟩, hpre, hle, hout⟩ :=
      hend.closed 0 r (by rw [hr]; rfl)
    -- the only `done` is the last call
    rw [clientCalls_eq] at hsplit
    obtain ⟨rfl, -, -⟩ := (List.append_cons_inj_of_notMem (by simp) List.not_mem_nil).mp hsplit
    rw [chunks_tests] at hpre
    rw [hchunks] at hle
    have hvec : r.svc.vec = tests strNum stopNum :=
      hle.eq_of_length_le hpre.length_le
    refine ⟨?_, r, hr, hclosed, hvec, by rw [hout, hvec]⟩
    rw [hend.req]
    exact (vec_foldl _).trans hchunks

end RpcTransport.HelloStream

import RpcTransport.CapnpStream
import RpcTransport.Workloads

/-!
# One `RequestCallback` object

The schema lets a client call `sendChunk` and `done` on one object as often as it likes, and a call
may arrive while the reply to an earlier `done` is still being streamed.  The object keeps its two
messages for all of them, and every reply stream runs by index over the response as it is at the
time.

The object moves by events: a `sendChunk`, a `done`, a chunk of a reply stream that is acknowledged
and lets the next round run, and a reply stream's own `done` that returns.  `rcvFn` adds to the
response what `produce` says for the call's number, its request and the response so far;
`serverRcvFn_adds` says that `ServerRcvFn` is of this kind.

* `object_inv` — what holds after any sequence of events;
* `done_answers_iff` — when every reply stream carries the response of its own call.
-/

namespace RpcTransport

open Transition (Run exec run_of_exec)

/-- What call `j` of `rcvFn` adds to the response. -/
abbrev Produce := ℕ → Msg → Msg → Except Fault Msg

/-- The receive function of call `j`. -/
def Produce.rcvFn (produce : Produce) (j : ℕ) : RcvFn :=
  fun req rsp => (produce j req rsp).map (rsp ++ ·)

/-- One `done` call: what the response held before it and what its `rcvFn` added, where its reply
stream stands, and the calls made on the reply capability. -/
structure ReplyTask where
  before : Msg
  own : Msg
  pc : ChunkPc
  calls : List ChunkCall
  deriving DecidableEq

/-- The object, its `done` calls in order, and whether the process has aborted. -/
structure ObjectState where
  svc : ReqSvcImpl := {}
  tasks : List ReplyTask := []
  down : Bool := false

inductive ObjectEvent
  | sendChunk (chunk : DataBuf)
  | done
  /-- the last chunk of reply stream `j` is acknowledged -/
  | ack (j : ℕ)
  /-- the `done` of reply stream `j` returns -/
  | returned (j : ℕ)

/-- The next round of a reply stream. -/
def ReplyTask.round (t : ReplyTask) (sndMsg : Msg) (bufIdx : ℕ) : ReplyTask :=
  { t with
    pc := (sendReplyStream sndMsg bufIdx).1
    calls := t.calls ++ (sendReplyStream sndMsg bufIdx).2 }

/-- `return sendReplyStream(replySvc, _sndMsg, 0)`: the first round runs before `done` returns. -/
def ReplyTask.start (before sndMsg : Msg) : ReplyTask :=
  ReplyTask.round { before, own := sndMsg.drop before.length, pc := .send 0, calls := [] } sndMsg 0

variable (produce : Produce)

def objectStep : ObjectEvent → ObjectState → Option ObjectState
  | .sendChunk chunk, s =>
      if s.down then none else some { s with svc := s.svc.sendChunk chunk }
  | .done, s =>
      if s.down then none
      else
        match s.svc.done (produce.rcvFn s.tasks.length) with
        | .ok svc => some { s with
            svc
            tasks := s.tasks ++ [ReplyTask.start s.svc.sndMsg svc.sndMsg] }
        | .error _ => some { s with down := true }
  | .ack j, s =>
      if s.down then none
      else
        match s.tasks[j]? with
        | none => none
        | some t =>
            match t.pc with
            | .sent k => some { s with tasks := s.tasks.set j (t.round s.svc.sndMsg (k + 1)) }
            | _ => none
  | .returned j, s =>
      if s.down then none
      else
        match s.tasks[j]? with
        | none => none
        | some t =>
            match t.pc with
            | .doneSent => some { s with tasks := s.tasks.set j { t with pc := .finished } }
            | _ => none

def ObjectMoves (e : ObjectEvent) (s s' : ObjectState) : Prop := objectStep produce e s = some s'

/-- The calls that carry the response `m` and nothing else. -/
def replyCalls (m : Msg) : List ChunkCall := m.map .sendChunk ++ [.done]

/-- The reply stream has carried the response of its own call. -/
def ReplyTask.Answered (t : ReplyTask) : Prop := t.calls = replyCalls t.own

/-- No reply stream is under way and nothing has failed. -/
def ObjectState.Finished (s : ObjectState) : Prop :=
  s.down = false ∧ ∀ t ∈ s.tasks, t.pc = .finished

variable {produce}

/-- One constructor for each way to move. -/
inductive ObjectMove (produce : Produce) : ObjectEvent → ObjectState → ObjectState → Prop
  | sendChunk {s} (chunk : DataBuf) :
      ObjectMove produce (.sendChunk chunk) s { s with svc := s.svc.sendChunk chunk }
  | done {s own} (hown : produce s.tasks.length s.svc.rcvMsg s.svc.sndMsg = .ok own) :
      ObjectMove produce .done s { s with
        svc := { s.svc with
          sndMsg := s.svc.sndMsg ++ own, calls := s.svc.calls ++ [s.svc.rcvMsg] }
        tasks := s.tasks ++ [ReplyTask.start s.svc.sndMsg (s.svc.sndMsg ++ own)] }
  | abort {s} : ObjectMove produce .done s { s with down := true }
  | ack {s j t k} (ht : s.tasks[j]? = some t) (hpc : t.pc = .sent k) :
      ObjectMove produce (.ack j) s { s with tasks := s.tasks.set j (t.round s.svc.sndMsg (k + 1)) }
  | returned {s j t} (ht : s.tasks[j]? = some t) (hpc : t.pc = .doneSent) :
      ObjectMove produce (.returned j) s
        { s with tasks := s.tasks.set j { t with pc := .finished } }

theorem objectMove_of_step {e : ObjectEvent} {s s' : ObjectState}
    (h : ObjectMoves produce e s s') : ObjectMove produce e s s' := by
  unfold ObjectMoves at h
  cases e with
  | sendChunk chunk =>
      rw [objectStep] at h
      split at h
      · cases h
      · cases h
        exact .sendChunk chunk
  | done =>
      rw [objectStep] at h
      split at h
      · cases h
      · rw [ReqSvcImpl.done, Produce.rcvFn] at h
        cases hown : produce s.tasks.length s.svc.rcvMsg s.svc.sndMsg with
        | ok own =>
            rw [hown] at h
            cases h
            exact .done hown
        | error e =>
            rw [hown] at h
            cases h
            exact .abort
  | ack j =>
      rw [objectStep] at h
      split at h
      · cases h
      · split at h
        · cases h
        · rename_i t ht
          split at h
          · rename_i k hpc
            cases h
            exact .ack ht hpc
          · cases h
  | returned j =>
      rw [objectStep] at h
      split at h
      · cases h
      · split at h
        · cases h
        · rename_i t ht
          split at h
          · rename_i hpc
            cases h
            exact .returned ht hpc
          · cases h

/-! ### The invariant -/

/-- A reply stream over the response `m` as it is now: it has sent a prefix of it and waits, or it
has come to the end of what the response was at some time since its own call. -/
inductive Replying (m : Msg) (t : ReplyTask) : Prop
  | streaming {k : ℕ} (hpc : t.pc = .sent k) (hk : k < m.length)
      (hcalls : t.calls = (m.take (k + 1)).map .sendChunk) (hown : t.before ++ t.own <+: m)
      (hne : t.before ++ t.own ≠ [])
  | ended {whole : Msg} (hpc : t.pc = .doneSent ∨ t.pc = .finished)
      (hcalls : t.calls = replyCalls whole) (hown : t.before ++ t.own <+: whole)
      (hwhole : whole <+: m) (hempty : t.before ++ t.own = [] → whole = [])

/-- The response before each `done` call and what the call added. -/
def ObjectState.spans (s : ObjectState) : List (Msg × Msg) :=
  s.tasks.map fun t => (t.before, t.own)

/-- Every reply stream is over the object's response, and what a call added is the end of the
response, or a later call found it there. -/
structure ObjectInv (s : ObjectState) : Prop where
  replying : ∀ t ∈ s.tasks, Replying s.svc.sndMsg t
  covered : ∀ p ∈ s.spans, p.1 ++ p.2 = s.svc.sndMsg ∨ ∃ q ∈ s.spans, p.1 ++ p.2 <+: q.1

theorem ObjectInv.init : ObjectInv {} where
  replying := by
    intro t ht
    cases ht
  covered := by
    intro p hp
    cases hp

/-- Responses that grow do not disturb the streams over them. -/
theorem Replying.mono {m m' : Msg} {t : ReplyTask} (h : Replying m t) (hle : m <+: m') :
    Replying m' t := by
  cases h with
  | streaming hpc hk hcalls hown hne =>
      have hlen := hle.length_le
      refine .streaming hpc (by omega) ?_ (hown.trans hle) hne
      obtain ⟨more, rfl⟩ := hle
      rw [hcalls, List.take_append_of_le_length (by omega)]
  | ended hpc hcalls hown hwhole hempty =>
      exact .ended hpc hcalls hown (hwhole.trans hle) hempty

/-- **One round** of a stream that has sent the first `k` buffers. -/
theorem replying_round {m : Msg} {t : ReplyTask} {k : ℕ} (hk : k ≤ m.length)
    (hcalls : t.calls = (m.take k).map .sendChunk) (hown : t.before ++ t.own <+: m)
    (hne : k < m.length → t.before ++ t.own ≠ []) (hnil : t.before ++ t.own = [] → k = 0) :
    Replying m (t.round m k) := by
  rcases sendStream_cases hk with ⟨hdrop, hround⟩ | ⟨buf, hlt, hdrop, hround⟩
  · have htake : m.take k = m := by
      rw [← List.take_append_drop k m, hdrop, List.append_nil, List.take_take, min_self]
    refine .ended (.inl ?_) ?_ hown (List.prefix_refl m) fun hempty => ?_
    · show (sendStream m k).1 = _
      rw [hround]
    · show t.calls ++ (sendStream m k).2 = _
      rw [hround, hcalls, htake, replyCalls]
    · rw [← htake, hnil hempty, List.take_zero]
  · refine .streaming (k := k) ?_ hlt ?_ hown (hne hlt)
    · show (sendStream m k).1 = _
      rw [hround]
    · show t.calls ++ (sendStream m k).2 = _
      rw [hround, hcalls, List.take_add_one, List.map_append]
      rw [List.drop_eq_getElem_cons hlt] at hdrop
      rw [List.getElem?_eq_getElem hlt, ← (List.cons.inj hdrop).1]
      rfl

theorem replying_start {before own : Msg} :
    Replying (before ++ own) (ReplyTask.start before (before ++ own)) := by
  have hspan : before ++ (before ++ own).drop before.length = before ++ own := by
    rw [List.drop_left]
  refine replying_round (Nat.zero_le _) rfl ?_ ?_ fun _ => rfl
  · exact ⟨[], by rw [List.append_nil, hspan]⟩
  · intro hpos
    rw [hspan]
    exact List.ne_nil_of_length_pos hpos

theorem Replying.ack {m : Msg} {t : ReplyTask} {k : ℕ} (h : Replying m t) (hpc : t.pc = .sent k) :
    Replying m (t.round m (k + 1)) := by
  cases h with
  | streaming hpc' hk hcalls hown hne =>
      rw [hpc] at hpc'
      cases hpc'
      exact replying_round hk hcalls hown (fun _ => hne) fun hnil => absurd hnil hne
  | ended hpc' => simp [hpc] at hpc'

theorem Replying.returned {m : Msg} {t : ReplyTask} (h : Replying m t) (hpc : t.pc = .doneSent) :
    Replying m { t with pc := .finished } := by
  cases h with
  | streaming hpc' => simp [hpc] at hpc'
  | ended _ hcalls hown hwhole hempty => exact .ended (.inr rfl) hcalls hown hwhole hempty

/-- A reply stream that moves leaves the spans alone. -/
theorem spans_set {s : ObjectState} {j : ℕ} {t t' : ReplyTask} (ht : s.tasks[j]? = some t)
    (hsame : (t'.before, t'.own) = (t.before, t.own)) :
    ({ s with tasks := s.tasks.set j t' } : ObjectState).spans = s.spans := by
  obtain ⟨hj, rfl⟩ := List.getElem?_eq_some_iff.mp ht
  show (s.tasks.set j t').map (fun t => (t.before, t.own))
    = s.tasks.map fun t => (t.before, t.own)
  rw [List.map_set, hsame]
  have hget := List.getElem_map (fun t : ReplyTask => (t.before, t.own)) (l := s.tasks)
    (h := by rw [List.length_map]; exact hj)
  rw [← hget, List.set_getElem_self]

theorem ObjectInv.set {s : ObjectState} (h : ObjectInv s) {j : ℕ} {t t' : ReplyTask}
    (ht : s.tasks[j]? = some t) (hsame : (t'.before, t'.own) = (t.before, t.own))
    (hreply : Replying s.svc.sndMsg t') : ObjectInv { s with tasks := s.tasks.set j t' } := by
  refine ⟨fun u hu => ?_, ?_⟩
  · rcases List.mem_or_eq_of_mem_set hu with hmem | rfl
    · exact h.replying u hmem
    · exact hreply
  · rw [spans_set ht hsame]
    exact h.covered

/-- **What one event preserves.** -/
theorem ObjectInv.move {e : ObjectEvent} {s s' : ObjectState} (h : ObjectInv s)
    (hmove : ObjectMove produce e s s') : ObjectInv s' := by
  cases hmove with
  | sendChunk chunk => exact ⟨h.replying, h.covered⟩
  | abort => exact ⟨h.replying, h.covered⟩
  | ack ht hpc =>
      exact h.set ht rfl ((h.replying _ (List.mem_of_getElem? ht)).ack hpc)
  | returned ht hpc =>
      exact h.set ht rfl ((h.replying _ (List.mem_of_getElem? ht)).returned hpc)
  | done hown =>
      rename_i own
      refine ⟨fun u hu => ?_, fun p hp => ?_⟩
      · rcases List.mem_append.mp hu with hmem | hmem
        · exact (h.replying u hmem).mono (List.prefix_append _ _)
        · rw [List.mem_singleton.mp hmem]
          exact replying_start
      · have hspans : ∀ q, q ∈ s.spans ++ [(s.svc.sndMsg,
            (s.svc.sndMsg ++ own).drop s.svc.sndMsg.length)] ↔
            q ∈ (s.tasks ++ [ReplyTask.start s.svc.sndMsg (s.svc.sndMsg ++ own)]).map
              fun t => (t.before, t.own) := by
          intro q
          rw [List.map_append]
          rfl
        rcases List.mem_append.mp ((hspans p).mpr hp) with hmem | hmem
        · -- what was the end of the response is what the new call found
          right
          rcases h.covered p hmem with heq | ⟨q, hq, hle⟩
          · refine ⟨_, (hspans _).mp (List.mem_append_right _ (List.mem_singleton.mpr rfl)), ?_⟩
            exact ⟨[], by rw [List.append_nil, heq]⟩
          · exact ⟨q, (hspans q).mp (List.mem_append_left _ hq), hle⟩
        · left
          rw [List.mem_singleton.mp hmem, List.drop_left]

/-- **What holds after any sequence of events.** -/
theorem object_inv {ls : List ObjectEvent} {s : ObjectState}
    (hrun : Run (ObjectMoves produce) {} ls s) : ObjectInv s :=
  hrun.invariant ObjectInv.init fun _ _ _ h hmove => h.move (objectMove_of_step hmove)

/-! ### When each `done` call answers for itself -/

/-- Every `done` call so far found the response empty. -/
def FoundEmpty (s : ObjectState) : Prop := ∀ t ∈ s.tasks, t.before = []

/-- A call whose response is still there whole: what it added is the response, or nothing. -/
theorem ObjectInv.own_of_foundEmpty {s : ObjectState} (h : ObjectInv s) (hempty : FoundEmpty s)
    {t : ReplyTask} (ht : t ∈ s.tasks) : t.own = s.svc.sndMsg ∨ t.own = [] := by
  have hmem : (t.before, t.own) ∈ s.spans := List.mem_map.mpr ⟨t, ht, rfl⟩
  rcases h.covered _ hmem with heq | ⟨q, hq, hle⟩
  · left
    rw [← heq, hempty t ht, List.nil_append]
  · right
    obtain ⟨u, hu, rfl⟩ := List.mem_map.mp hq
    rw [hempty t ht, List.nil_append, hempty u hu, List.prefix_nil] at hle
    exact hle

/-- A stream of a call that found the response empty carries nothing but what the call added. -/
theorem ObjectInv.calls_prefix {s : ObjectState} (h : ObjectInv s) (hempty : FoundEmpty s)
    {t : ReplyTask} (ht : t ∈ s.tasks) :
    t.calls <+: replyCalls t.own ∧ (t.pc = .finished → t.Answered) := by
  have hown := h.own_of_foundEmpty hempty ht
  cases h.replying t ht with
  | streaming hpc hk hcalls hspan hne =>
      rw [hempty t ht, List.nil_append] at hne
      refine ⟨?_, fun hfin => by simp [hfin] at hpc⟩
      rw [hcalls, hown.resolve_right hne, replyCalls]
      exact ((List.take_prefix _ _).map _).trans (List.prefix_append _ _)
  | ended hpc hcalls hspan hwhole hnil =>
      rename_i whole
      rw [hempty t ht, List.nil_append] at hspan hnil
      have heq : whole = t.own := by
        rcases hown with hall | hnone
        · rw [← hall] at hwhole
          exact hwhole.eq_of_length_le hspan.length_le
        · rw [hnone, hnil hnone]
      rw [heq] at hcalls
      exact ⟨hcalls ▸ List.prefix_refl _, fun _ => hcalls⟩

/-- A stream that has carried its own response found the response empty. -/
theorem Replying.before_nil {m : Msg} {t : ReplyTask} (h : Replying m t) (hfin : t.pc = .finished)
    (hans : t.Answered) : t.before = [] := by
  cases h with
  | streaming hpc => simp [hfin] at hpc
  | ended hpc hcalls hown hwhole hnil =>
      rename_i whole
      have hinj : whole = t.own := by
        have heq : replyCalls whole = replyCalls t.own := hcalls.symm.trans hans
        rw [replyCalls, replyCalls, List.append_cancel_right_eq] at heq
        exact List.map_injective_iff.mpr (fun a b hab => ChunkCall.sendChunk.inj hab) heq
      have hlen := hown.length_le
      rw [hinj, List.length_append] at hlen
      exact List.eq_nil_of_length_eq_zero (by omega)

/-- **When each `done` call answers for itself.**  For every sequence of calls on the object and
every interleaving with its reply streams: as long as every `done` call has found the response
empty, no stream carries a buffer that is not its own call's; and when all streams are over, each
has carried the response of its own call exactly if every `done` call found the response empty. -/
theorem done_answers_iff (produce : Produce) {ls : List ObjectEvent} {s : ObjectState}
    (hrun : Run (ObjectMoves produce) {} ls s) :
    (FoundEmpty s → ∀ t ∈ s.tasks, t.calls <+: replyCalls t.own) ∧
    (s.Finished → ((∀ t ∈ s.tasks, t.Answered) ↔ FoundEmpty s)) := by
  have hinv := object_inv hrun
  refine ⟨fun hempty t ht => (hinv.calls_prefix hempty ht).1, fun hfin => ?_⟩
  constructor
  · intro hans t ht
    exact (hinv.replying t ht).before_nil (hfin.2 t ht) (hans t ht)
  · intro hempty t ht
    exact (hinv.calls_prefix hempty ht).2 (hfin.2 t ht)

/-- `ServerRcvFn` adds to the response, and what it adds does not depend on what is there. -/
theorem serverRcvFn_adds {pb : Protobuf} {verbosity : ℕ} (env : ServerEnv) (req rsp : Msg) :
    (serverRcvFn pb verbosity env req rsp).val
      = ((serverRcvFn pb verbosity env req []).val).map (rsp ++ ·) := by
  cases req with
  | nil => rw [serverRcvFn_empty, serverRcvFn_empty]; rfl
  | cons first rest =>
      cases hpar : (pb.par first).hdr? with
      | none =>
          rw [serverRcvFn_val, serverRcvFn_val, hpar]
          rfl
      | some hdr =>
          cases hkind : hdr.hdr with
          | notSet =>
              rw [serverRcvFn_val, serverRcvFn_val, hpar]
              simp only [serverDispatch, hkind]
              rfl
          | rsp w h =>
              rw [serverRcvFn_val, serverRcvFn_val, hpar]
              simp only [serverDispatch, hkind]
              rfl
          | req w h =>
              rw [serverRcvFn_reqHdr env hpar hkind, serverRcvFn_reqHdr env hpar hkind]
              cases w with
              | write => rfl
              | echo => rfl
              | read =>
                  dsimp only
                  rw [ReadRspPayloadCreator.fill_val, ReadRspPayloadCreator.fill_val]
                  split_ifs
                  · rfl
                  · rfl
                  · simp [Except.map]
                  · simp [Except.map]

/-- One `done` call with two buffers to answer. -/
theorem done_answers_once :
    ∃ s, exec (objectStep fun _ _ _ => .ok [[1], [2]])
        [.sendChunk [0], .done, .ack 0, .ack 0, .returned 0] {} = some s ∧
      (FoundEmpty s → ∀ t ∈ s.tasks, t.calls <+: replyCalls t.own) ∧
      (s.Finished → ((∀ t ∈ s.tasks, t.Answered) ↔ FoundEmpty s)) :=
  ⟨_, rfl, done_answers_iff (fun _ _ _ => .ok [[1], [2]])
    (run_of_exec [.sendChunk [0], .done, .ack 0, .ack 0, .returned 0] rfl)⟩

/-- Two `done` calls, one after the other: the second stream sends the first response again. -/
theorem second_done_repeats :
    ∃ ls s, Run (ObjectMoves fun j _ _ => .ok [[UInt8.ofNat j]]) {} ls s ∧ s.Finished ∧
      ¬ ∀ t ∈ s.tasks, t.Answered := by
  refine ⟨_, _, run_of_exec [.done, .ack 0, .returned 0, .done, .ack 1, .ack 1, .returned 1] rfl,
    ⟨rfl, by decide⟩, ?_⟩
  unfold ReplyTask.Answered
  decide

end RpcTransport

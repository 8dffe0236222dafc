import RpcTransport.Lib.Transition
import RpcTransport.Transport

/-!
# The RSocket server: `handleRequestChannel`

The handler subscribes to the request stream, whose payloads arrive later on another thread, and
goes on at once: it calls `rcvFn` and returns a flowable that reads the response when it is pulled.
Both callbacks capture locals of the handler by reference.

The handler moves by events: those of its own thread, those of the stream, and the pulls of the
response.  A schedule is any order of events that are possible.  The locals are alive until the
handler returns; a callback that touches them later does something the language leaves undefined,
which is recorded in `dangling` and produces nothing.

* `handler_inv` — what holds in every schedule;
* `handler_served_iff` — the schedules in which the handler serves the stream.
-/

namespace RpcTransport.Rsocket

open Transition (Run Precedes exec run_of_exec)

/-! ### The handler -/

/-- What `handleRequestChannel` and the threads around it do. -/
inductive HandlerEvent
  /-- `request->subscribe(subscriber)` -/
  | subscribe
  /-- a payload reaches the subscriber -/
  | onNext
  /-- the completion signal reaches the subscriber -/
  | onComplete
  /-- `rcvFn(rcvMsg, sndMsg, rspData)` -/
  | rcvFn
  /-- the handler returns the response flowable -/
  | ret
  /-- the response flowable maps its next index -/
  | map
  deriving DecidableEq, Repr

inductive HandlerPc
  | entered
  | subscribed
  | called
  | returned
  /-- `std::abort()` after an exception of `rcvFn` -/
  | aborted
  deriving DecidableEq, Repr

/-- The handler, the payloads still to come, and what has been observed of it: the calls of `rcvFn`,
each with whether the stream had completed, and the elements of the response. -/
structure HandlerState where
  pc : HandlerPc := .entered
  alive : Bool := true
  pending : List Bytes
  completed : Bool := false
  rcvMsg : Msg := []
  sndMsg : Msg := []
  calls : List (Bool × Msg) := []
  range : ℕ := 0
  idx : ℕ := 0
  sent : Msg := []
  dangling : Bool := false

/-- The subscriber can be reached: it has been subscribed and the process is there. -/
def HandlerState.Listening (s : HandlerState) : Prop := s.pc ≠ .entered ∧ s.pc ≠ .aborted

instance (s : HandlerState) : Decidable s.Listening :=
  inferInstanceAs (Decidable (_ ∧ _))

variable (rcvFn : RcvFn)

def handlerStep : HandlerEvent → HandlerState → Option HandlerState
  | .subscribe, s => if s.pc = .entered then some { s with pc := .subscribed } else none
  | .onNext, s =>
      match s.pending with
      | [] => none
      | p :: ps =>
          if s.Listening then
            if s.alive then some { s with pending := ps, rcvMsg := s.rcvMsg ++ [p] }
            else some { s with pending := ps, dangling := true }
          else none
  | .onComplete, s =>
      if s.Listening ∧ s.pending = [] ∧ s.completed = false then
        some { s with completed := true }
      else none
  | .rcvFn, s =>
      if s.pc = .subscribed then
        let calls := s.calls ++ [(s.completed, s.rcvMsg)]
        match rcvFn s.rcvMsg s.sndMsg with
        | .ok rsp => some { s with pc := .called, calls, sndMsg := rsp }
        | .error _ => some { s with pc := .aborted, calls }
      else none
  | .ret, s =>
      -- `range(0, sndMsg._bufs.size())` is evaluated before the locals end their life
      if s.pc = .called then
        some { s with pc := .returned, alive := false, range := s.sndMsg.length }
      else none
  | .map, s =>
      if s.pc = .returned ∧ s.idx < s.range then
        if s.alive then
          some { s with idx := s.idx + 1, sent := s.sent ++ [s.sndMsg.getD s.idx []] }
        else some { s with idx := s.idx + 1, dangling := true }
      else none

def HandlerMoves (e : HandlerEvent) (s s' : HandlerState) : Prop := handlerStep rcvFn e s = some s'

/-- The schedule is over: the process has aborted, or the whole stream has reached the subscriber,
the handler has returned and the response has been pulled to its end. -/
def HandlerState.Finished (s : HandlerState) : Prop :=
  s.pc = .aborted ∨ (s.pc = .returned ∧ s.completed = true ∧ s.idx = s.range)

/-- `rcvFn` ran once, after the completion, on the payloads; nothing dead was touched; the response
is what `rcvFn` produced. -/
structure Served (payloads : List Bytes) (s : HandlerState) : Prop where
  once : s.calls = [(true, payloads)]
  alive : s.dangling = false
  response : ∀ rsp, rcvFn payloads [] = .ok rsp → s.sent = rsp

/-! ### What the handler can do -/

variable {rcvFn}

/-- One constructor for each way to move. -/
inductive HandlerMove (rcvFn : RcvFn) : HandlerEvent → HandlerState → HandlerState → Prop
  | subscribe {s} (hpc : s.pc = .entered) :
      HandlerMove rcvFn .subscribe s { s with pc := .subscribed }
  | receive {s p ps} (hpending : s.pending = p :: ps) (hlisten : s.Listening)
      (halive : s.alive = true) :
      HandlerMove rcvFn .onNext s { s with pending := ps, rcvMsg := s.rcvMsg ++ [p] }
  | receiveDead {s p ps} (hpending : s.pending = p :: ps) (hlisten : s.Listening)
      (halive : s.alive = false) :
      HandlerMove rcvFn .onNext s { s with pending := ps, dangling := true }
  | complete {s} (hpending : s.pending = []) (hlisten : s.Listening) :
      HandlerMove rcvFn .onComplete s { s with completed := true }
  | call {s rsp} (hpc : s.pc = .subscribed) (hrcv : rcvFn s.rcvMsg s.sndMsg = .ok rsp) :
      HandlerMove rcvFn .rcvFn s
        { s with pc := .called, calls := s.calls ++ [(s.completed, s.rcvMsg)], sndMsg := rsp }
  | abort {s e} (hpc : s.pc = .subscribed) (hrcv : rcvFn s.rcvMsg s.sndMsg = .error e) :
      HandlerMove rcvFn .rcvFn s
        { s with pc := .aborted, calls := s.calls ++ [(s.completed, s.rcvMsg)] }
  | ret {s} (hpc : s.pc = .called) :
      HandlerMove rcvFn .ret s
        { s with pc := .returned, alive := false, range := s.sndMsg.length }
  | map {s} (hpc : s.pc = .returned) (hidx : s.idx < s.range) (halive : s.alive = true) :
      HandlerMove rcvFn .map s
        { s with idx := s.idx + 1, sent := s.sent ++ [s.sndMsg.getD s.idx []] }
  | mapDead {s} (hpc : s.pc = .returned) (hidx : s.idx < s.range) (halive : s.alive = false) :
      HandlerMove rcvFn .map s { s with idx := s.idx + 1, dangling := true }

theorem handlerMove_of_step {e : HandlerEvent} {s s' : HandlerState}
    (h : HandlerMoves rcvFn e s s') : HandlerMove rcvFn e s s' := by
  unfold HandlerMoves at h
  cases e with
  | subscribe =>
      rw [handlerStep] at h
      split at h
      · rename_i hpc
        cases h
        exact .subscribe hpc
      · cases h
  | onNext =>
      rw [handlerStep] at h
      split at h
      · cases h
      · rename_i p ps hpending
        split at h
        · rename_i hlisten
          split at h
          · rename_i halive
            cases h
            exact .receive hpending hlisten halive
          · rename_i hdead
            cases h
            exact .receiveDead hpending hlisten (by simpa using hdead)
        · cases h
  | onComplete =>
      rw [handlerStep] at h
      split at h
      · rename_i hcond
        cases h
        exact .complete hcond.2.1 hcond.1
      · cases h
  | rcvFn =>
      rw [handlerStep] at h
      split at h
      · rename_i hpc
        dsimp only at h
        split at h
        · rename_i rsp hrcv
          cases h
          exact .call hpc hrcv
        · rename_i e hrcv
          cases h
          exact .abort hpc hrcv
      · cases h
  | ret =>
      rw [handlerStep] at h
      split at h
      · rename_i hpc
        cases h
        exact .ret hpc
      · cases h
  | map =>
      rw [handlerStep] at h
      split at h
      · rename_i hcond
        split at h
        · rename_i halive
          cases h
          exact .map hcond.1 hcond.2 halive
        · rename_i hdead
          cases h
          exact .mapDead hcond.1 hcond.2 (by simpa using hdead)
      · cases h

/-! ### The invariant of the handler -/

/-- `rcvFn` was called once, with this result.  If the completion came before the call, the call was
on all payloads. -/
def CalledOnce (rcvFn : RcvFn) (payloads : List Bytes) (ls : List HandlerEvent)
    (s : HandlerState) (result : Except Fault Msg) : Prop :=
  ∃ first req, s.calls = [(first, req)] ∧ rcvFn req [] = result ∧
    (first = true ↔ Precedes .onComplete .rcvFn ls) ∧
    (first = true → req = payloads ∧ s.pending = [])

/-- What holds in each phase of the handler. -/
inductive HandlerPhase (rcvFn : RcvFn) (payloads : List Bytes) (ls : List HandlerEvent)
    (s : HandlerState) : Prop
  | waiting (hpc : s.pc = .entered ∨ s.pc = .subscribed) (halive : s.alive = true)
      (hdangling : s.dangling = false) (hcalls : s.calls = []) (hsnd : s.sndMsg = [])
      (hsent : s.sent = []) (hidx : s.idx = 0)
  | called (hpc : s.pc = .called) (halive : s.alive = true) (hdangling : s.dangling = false)
      (hcall : CalledOnce rcvFn payloads ls s (.ok s.sndMsg)) (hsent : s.sent = [])
      (hidx : s.idx = 0)
  | returned (hpc : s.pc = .returned) (halive : s.alive = false)
      (hcall : CalledOnce rcvFn payloads ls s (.ok s.sndMsg)) (hsent : s.sent = [])
      (hrange : s.range = s.sndMsg.length) (hpulled : 0 < s.idx → s.dangling = true)
      (hquiet : Precedes .onComplete .rcvFn ls → s.idx = 0 → s.dangling = false)
  | aborted {e : Fault} (hpc : s.pc = .aborted) (hdangling : s.dangling = false)
      (hcall : CalledOnce rcvFn payloads ls s (.error e))

/-- Before the call nothing has happened. -/
theorem HandlerPhase.waiting_of_pc {payloads : List Bytes} {ls : List HandlerEvent}
    {s : HandlerState} (h : HandlerPhase rcvFn payloads ls s)
    (hpc : s.pc = .entered ∨ s.pc = .subscribed) :
    s.alive = true ∧ s.dangling = false ∧ s.calls = [] ∧ s.sndMsg = [] ∧ s.sent = [] ∧
      s.idx = 0 := by
  cases h with
  | waiting _ halive hdangling hcalls hsnd hsent hidx =>
      exact ⟨halive, hdangling, hcalls, hsnd, hsent, hidx⟩
  | called hpc' => simp [hpc'] at hpc
  | returned hpc' => simp [hpc'] at hpc
  | aborted hpc' => simp [hpc'] at hpc

/-- Between the call and the return the response is there and nothing of it is sent. -/
theorem HandlerPhase.called_of_pc {payloads : List Bytes} {ls : List HandlerEvent}
    {s : HandlerState} (h : HandlerPhase rcvFn payloads ls s) (hpc : s.pc = .called) :
    s.alive = true ∧ s.dangling = false ∧ CalledOnce rcvFn payloads ls s (.ok s.sndMsg) ∧
      s.sent = [] ∧ s.idx = 0 := by
  cases h with
  | waiting hpc' => simp [hpc] at hpc'
  | called _ halive hdangling hcall hsent hidx =>
      exact ⟨halive, hdangling, hcall, hsent, hidx⟩
  | returned hpc' => simp [hpc] at hpc'
  | aborted hpc' => simp [hpc] at hpc'

/-- After the return both messages are gone, and every element pulled was read from one of them. -/
theorem HandlerPhase.returned_of_pc {payloads : List Bytes} {ls : List HandlerEvent}
    {s : HandlerState} (h : HandlerPhase rcvFn payloads ls s) (hpc : s.pc = .returned) :
    s.alive = false ∧ CalledOnce rcvFn payloads ls s (.ok s.sndMsg) ∧ s.sent = [] ∧
      s.range = s.sndMsg.length ∧ (0 < s.idx → s.dangling = true) ∧
      (Precedes .onComplete .rcvFn ls → s.idx = 0 → s.dangling = false) := by
  cases h with
  | waiting hpc' => simp [hpc] at hpc'
  | called hpc' => simp [hpc] at hpc'
  | returned _ halive hcall hsent hrange hpulled hquiet =>
      exact ⟨halive, hcall, hsent, hrange, hpulled, hquiet⟩
  | aborted hpc' => simp [hpc] at hpc'

structure HandlerInv (rcvFn : RcvFn) (payloads : List Bytes) (ls : List HandlerEvent)
    (s : HandlerState) : Prop where
  received : s.alive = true → s.rcvMsg ++ s.pending = payloads
  completed : s.completed = true ↔ .onComplete ∈ ls
  drained : s.completed = true → s.pending = []
  phase : HandlerPhase rcvFn payloads ls s

theorem HandlerInv.init (rcvFn : RcvFn) (payloads : List Bytes) :
    HandlerInv rcvFn payloads [] { pending := payloads } :=
  ⟨fun _ => rfl, by simp, by simp, .waiting (.inl rfl) rfl rfl rfl rfl rfl rfl⟩

/-- While a payload is to come, the completion has not been seen. -/
theorem HandlerInv.not_completed {payloads : List Bytes} {ls : List HandlerEvent}
    {s : HandlerState} (hinv : HandlerInv rcvFn payloads ls s) {p : Bytes} {ps : List Bytes}
    (hpending : s.pending = p :: ps) : ¬ s.completed = true := fun hcompleted => by
  simp [hinv.drained hcompleted] at hpending

/-- Later events other than the call do not change what is known of it. -/
theorem CalledOnce.later {payloads : List Bytes} {ls : List HandlerEvent} {s s' : HandlerState}
    {result : Except Fault Msg} (h : CalledOnce rcvFn payloads ls s result) {e : HandlerEvent}
    (he : e ≠ .rcvFn) (hcalls : s'.calls = s.calls) (hpending : s.pending = [] → s'.pending = []) :
    CalledOnce rcvFn payloads (e :: ls) s' result := by
  obtain ⟨first, req, hcall, hres, hfirst, hall⟩ := h
  refine ⟨first, req, hcalls.trans hcall, hres, ?_, fun hf => ⟨(hall hf).1, hpending (hall hf).2⟩⟩
  rw [Transition.precedes_cons_of_ne he]
  exact hfirst

/-- The call itself: it is on the payloads if the completion was there. -/
theorem HandlerInv.calledOnce {payloads : List Bytes} {ls : List HandlerEvent}
    {s s' : HandlerState} (hinv : HandlerInv rcvFn payloads ls s) (halive : s.alive = true)
    (hcalls : s.calls = []) (hsnd : s.sndMsg = [])
    (hcalls' : s'.calls = s.calls ++ [(s.completed, s.rcvMsg)]) (hpending : s'.pending = s.pending)
    {result : Except Fault Msg} (hres : rcvFn s.rcvMsg s.sndMsg = result) :
    CalledOnce rcvFn payloads (.rcvFn :: ls) s' result := by
  refine ⟨s.completed, s.rcvMsg, by rw [hcalls', hcalls, List.nil_append], hsnd ▸ hres, ?_, ?_⟩
  · rw [Transition.precedes_cons_self]
    exact hinv.completed
  · intro hcompleted
    have hnil := hinv.drained hcompleted
    have hrcv := hinv.received halive
    rw [hnil, List.append_nil] at hrcv
    exact ⟨hrcv, hpending.trans hnil⟩

/-- **What one move preserves.** -/
theorem HandlerInv.move {payloads : List Bytes} {ls : List HandlerEvent} {e : HandlerEvent}
    {s s' : HandlerState} (hinv : HandlerInv rcvFn payloads ls s)
    (hmove : HandlerMove rcvFn e s s') : HandlerInv rcvFn payloads (e :: ls) s' := by
  have hphase := hinv.phase
  cases hmove with
  | subscribe hpc =>
      obtain ⟨halive, hdangling, hcalls, hsnd, hsent, hidx⟩ := hphase.waiting_of_pc (.inl hpc)
      exact ⟨hinv.received, by simpa using hinv.completed, hinv.drained,
        .waiting (.inr rfl) halive hdangling hcalls hsnd hsent hidx⟩
  | receive hpending hlisten halive =>
      refine ⟨fun _ => ?_, by simpa using hinv.completed,
        fun hc => (hinv.not_completed hpending hc).elim, ?_⟩
      · rw [List.append_assoc, List.singleton_append, ← hpending]
        exact hinv.received halive
      · cases hphase with
        | waiting hpc _ hdangling hcalls hsnd hsent hidx =>
            exact .waiting hpc halive hdangling hcalls hsnd hsent hidx
        | called hpc _ hdangling hcall hsent hidx =>
            exact .called hpc halive hdangling
              (hcall.later (by decide) rfl fun hnil => by simp [hnil] at hpending) hsent hidx
        | returned hpc hdead => simp [halive] at hdead
        | aborted hpc => exact (hlisten.2 hpc).elim
  | receiveDead hpending hlisten halive =>
      refine ⟨fun h => by simp [halive] at h, by simpa using hinv.completed,
        fun hc => (hinv.not_completed hpending hc).elim, ?_⟩
      cases hphase with
      | waiting _ halive' => simp [halive] at halive'
      | called _ halive' => simp [halive] at halive'
      | aborted hpc => exact (hlisten.2 hpc).elim
      | returned hpc _ hcall hsent hrange hpulled hquiet =>
          refine .returned hpc halive
            (hcall.later (by decide) rfl fun hnil => by simp [hnil] at hpending) hsent hrange
            (fun _ => rfl) fun hprec => ?_
          -- a payload is still to come, so the completion cannot have come before the call
          obtain ⟨first, req, -, -, hfirst, hall⟩ := hcall
          rw [Transition.precedes_cons_of_ne (by decide)] at hprec
          simp [(hall (hfirst.mpr hprec)).2] at hpending
  | complete hpending hlisten =>
      refine ⟨hinv.received, by simp, fun _ => hpending, ?_⟩
      cases hphase with
      | waiting hpc halive hdangling hcalls hsnd hsent hidx =>
          exact .waiting hpc halive hdangling hcalls hsnd hsent hidx
      | called hpc halive hdangling hcall hsent hidx =>
          exact .called hpc halive hdangling (hcall.later (by decide) rfl fun _ => hpending)
            hsent hidx
      | returned hpc halive hcall hsent hrange hpulled hquiet =>
          refine .returned hpc halive (hcall.later (by decide) rfl fun _ => hpending) hsent hrange
            hpulled ?_
          rw [Transition.precedes_cons_of_ne (by decide)]
          exact hquiet
      | aborted hpc => exact (hlisten.2 hpc).elim
  | call hpc hrcv =>
      obtain ⟨halive, hdangling, hcalls, hsnd, hsent, hidx⟩ := hphase.waiting_of_pc (.inr hpc)
      refine ⟨hinv.received, by simpa using hinv.completed, hinv.drained, ?_⟩
      refine .called rfl halive hdangling ?_ hsent hidx
      apply hinv.calledOnce halive hcalls hsnd
      · rfl
      · rfl
      · exact hrcv
  | abort hpc hrcv =>
      obtain ⟨halive, hdangling, hcalls, hsnd, -⟩ := hphase.waiting_of_pc (.inr hpc)
      refine ⟨hinv.received, by simpa using hinv.completed, hinv.drained, ?_⟩
      apply HandlerPhase.aborted
      · rfl
      · exact hdangling
      · apply hinv.calledOnce halive hcalls hsnd
        · rfl
        · rfl
        · exact hrcv
  | ret hpc =>
      obtain ⟨-, hdangling, hcall, hsent, hidx⟩ := hphase.called_of_pc hpc
      refine ⟨fun h => by simp at h, by simpa using hinv.completed, hinv.drained, ?_⟩
      refine .returned rfl rfl (hcall.later (by decide) rfl id) hsent rfl ?_ fun _ _ => hdangling
      intro hpos
      simp only [hidx, lt_self_iff_false] at hpos
  | map hpc hidx halive =>
      have hdead := (hphase.returned_of_pc hpc).1
      simp [halive] at hdead
  | mapDead hpc hidx halive =>
      obtain ⟨-, hcall, hsent, hrange, -, -⟩ := hphase.returned_of_pc hpc
      exact ⟨hinv.received, by simpa using hinv.completed, hinv.drained,
        .returned hpc halive (hcall.later (by decide) rfl id) hsent hrange (fun _ => rfl)
          fun _ hzero => by simp at hzero⟩

/-- **What holds in every schedule.** -/
theorem handler_inv {payloads : List Bytes} {ls : List HandlerEvent} {s : HandlerState}
    (hrun : Run (HandlerMoves rcvFn) { pending := payloads } ls s) :
    HandlerInv rcvFn payloads ls s := by
  induction hrun with
  | refl => exact HandlerInv.init rcvFn payloads
  | tail _ hmove ih => exact ih.move (handlerMove_of_step hmove)

/-! ### When the handler serves the stream -/

/-- The one call that was made is the one the handler is for when the completion came first. -/
theorem CalledOnce.once_iff {payloads : List Bytes} {ls : List HandlerEvent} {s : HandlerState}
    {result : Except Fault Msg} (h : CalledOnce rcvFn payloads ls s result) :
    s.calls = [(true, payloads)] ↔ Precedes .onComplete .rcvFn ls := by
  obtain ⟨first, req, hcall, -, hfirst, hall⟩ := h
  rw [hcall, ← hfirst]
  constructor
  · intro heq
    simp only [List.cons.injEq, Prod.mk.injEq, and_true] at heq
    exact heq.1
  · intro hf
    rw [hf, (hall hf).1]

theorem CalledOnce.result_eq {payloads : List Bytes} {ls : List HandlerEvent} {s : HandlerState}
    {result : Except Fault Msg} (h : CalledOnce rcvFn payloads ls s result)
    (hprec : Precedes .onComplete .rcvFn ls) : rcvFn payloads [] = result := by
  obtain ⟨first, req, -, hres, hfirst, hall⟩ := h
  rw [← (hall (hfirst.mpr hprec)).1]
  exact hres

/-- **The schedules in which the handler does its job.**  For every `rcvFn`, every stream of
payloads and every schedule that is over: exactly those in which the completion reaches the
subscriber before the handler calls `rcvFn`, provided `rcvFn` answers the payloads with an exception
or with no buffers at all. -/
theorem handler_served_iff {payloads : List Bytes} {ls : List HandlerEvent} {s : HandlerState}
    (hrun : Run (HandlerMoves rcvFn) { pending := payloads } ls s) (hfin : s.Finished) :
    Served rcvFn payloads s ↔
      Precedes .onComplete .rcvFn ls ∧ ∀ rsp, rcvFn payloads [] = .ok rsp → rsp = [] := by
  have hinv := handler_inv hrun
  cases hinv.phase with
  | waiting hpc =>
      rcases hfin with habort | ⟨hret, -⟩
      · simp [habort] at hpc
      · simp [hret] at hpc
  | called hpc =>
      rcases hfin with habort | ⟨hret, -⟩
      · simp [habort] at hpc
      · simp [hret] at hpc
  | aborted hpc hdangling hcall =>
      have honce := hcall.once_iff
      have hres := hcall.result_eq
      constructor
      · intro hserved
        have hprec := honce.mp hserved.once
        refine ⟨hprec, fun rsp hrsp => ?_⟩
        rw [hres hprec] at hrsp
        cases hrsp
      · rintro ⟨hprec, -⟩
        refine ⟨honce.mpr hprec, hdangling, fun rsp hrsp => ?_⟩
        rw [hres hprec] at hrsp
        cases hrsp
  | returned hpc halive hcall hsent hrange hpulled hquiet =>
      have honce := hcall.once_iff
      have hres := hcall.result_eq
      have hidx : s.idx = s.range := by
        rcases hfin with habort | ⟨-, -, hidx⟩
        · simp [habort] at hpc
        · exact hidx
      constructor
      · intro hserved
        have hprec := honce.mp hserved.once
        refine ⟨hprec, fun rsp hrsp => ?_⟩
        rw [← hserved.response rsp hrsp]
        exact hsent
      · rintro ⟨hprec, hempty⟩
        -- an empty response is never pulled, so nothing touches the message that is gone
        have hnil : s.sndMsg = [] := hempty s.sndMsg (hres hprec)
        have hzero : s.idx = 0 := by rw [hidx, hrange, hnil, List.length_nil]
        refine ⟨honce.mpr hprec, hquiet hprec hzero, fun rsp hrsp => ?_⟩
        rw [hsent, hempty rsp hrsp]

/-- In every schedule, an element of the response is read from a message that is gone. -/
theorem handler_response_dangling {payloads : List Bytes} {ls : List HandlerEvent}
    {s : HandlerState} (hrun : Run (HandlerMoves rcvFn) { pending := payloads } ls s)
    (hret : s.pc = .returned) (hpulled : 0 < s.idx) : s.dangling = true ∧ s.sent = [] := by
  obtain ⟨-, -, hsent, -, hdead, -⟩ := (handler_inv hrun).phase.returned_of_pc hret
  exact ⟨hdead hpulled, hsent⟩

/-- The completion comes first and `rcvFn` has nothing to answer. -/
theorem handler_served_empty :
    ∃ s, exec (handlerStep fun _ rsp => .ok rsp)
        [.subscribe, .onNext, .onComplete, .rcvFn, .ret] { pending := [[1]] } = some s ∧
      (Served (fun _ rsp => .ok rsp) [[1]] s ↔
        Precedes HandlerEvent.onComplete .rcvFn [.ret, .rcvFn, .onComplete, .onNext, .subscribe] ∧
          ∀ rsp : Msg, (.ok [] : Except Fault Msg) = .ok rsp → rsp = []) :=
  ⟨_, rfl, handler_served_iff
    (run_of_exec [HandlerEvent.subscribe, .onNext, .onComplete, .rcvFn, .ret] rfl)
    (.inr ⟨rfl, rfl, rfl⟩)⟩

/-- Even when the completion comes first: the first element of the response is read from a message
the handler's return has destroyed. -/
theorem handler_response_lost :
    ∃ ls s, Run (HandlerMoves fun req rsp => .ok (rsp ++ req)) { pending := [[1]] } ls s ∧
      s.Finished ∧ ¬ Served (fun req rsp => .ok (rsp ++ req)) [[1]] s := by
  refine ⟨_, _, run_of_exec [.subscribe, .onNext, .onComplete, .rcvFn, .ret, .map] rfl,
    .inr ⟨rfl, rfl, rfl⟩, fun hserved => ?_⟩
  exact absurd hserved.alive (by decide)

end RpcTransport.Rsocket
